import ServerPages.Proofs.Inclusion.Depth
import ServerPages.Proofs.Inclusion.Stack
import ServerPages.Proofs.Module.Hoisting

/-!
# Limits

A page is compiled under two limits, on the nesting of inclusions and on the number of `top`
directives. A limit that is raised changes nothing but a failure for that limit
(`Page.compile_of_le`), so a page that is compiled is compiled to the same module under higher
limits (`Page.compile_raised`).
-/

namespace ServerPages

namespace Inclusion

variable {e : Setting} {left room : Nat}

/-- Whether a file is opened does not depend on the limits, as long as there is room. -/
theorem openTarget_of_le (policy : Policy) (h : left ≤ room) (target : Text) (st : State) :
    openTarget e left target st = (.error (.tooDeep e.policy.maxIncludeDepth), st) ∨
      openTarget { e with policy } room target st = openTarget e left target st := by
  unfold openTarget enter
  dsimp only
  cases e.tree.isWithin e.cwd (Path.join (st.stack.headD []) target) (st.stack.headD []) with
  | error err => exact .inr rfl
  | ok inside =>
    cases inside with
    | false => exact .inr rfl
    | true =>
      by_cases hleft : left = 0
      · exact .inl (by rw [if_pos hleft])
      · have hroom : room ≠ 0 := by omega
        refine .inr ?_
        dsimp only
        rw [if_neg hleft, if_neg hroom]
        rfl

/-- With more room pieces are expanded the same, unless the room was too small. -/
theorem expandPieces_of_le (policy : Policy) (h : left ≤ room) (ps : List Piece) (st : State) :
    (expandPieces e left ps st).1 = .error (.tooDeep e.policy.maxIncludeDepth) ∨
      expandPieces { e with policy } room ps st = expandPieces e left ps st := by
  induction left, ps, st using expand_induction (e := e) generalizing room with
  | nil => exact .inr (by rw [expandPieces_nil, expandPieces_nil])
  | literal left s rest st ih =>
    rw [expandPieces_literal, expandPieces_literal]
    rcases ih h with hdeep | hsame
    · exact .inl (by rw [hdeep]; rfl)
    · exact .inr (by rw [hsame])
  | refused left target rest st err st₁ hopen =>
    rcases openTarget_of_le policy h target st with hdeep | hsame
    · exact .inl (by rw [expandPieces_refused hdeep])
    · exact .inr (by rw [expandPieces_refused hopen, expandPieces_refused (hsame.trans hopen)])
  | opened left target rest st text st₁ hopen hinner ih =>
    -- the file is expanded with one level less on both sides
    obtain ⟨room, rfl⟩ : ∃ r, room = r + 1 := ⟨room - 1, by omega⟩
    have hopen' : openTarget { e with policy } (room + 1) target st = (.ok text, st₁) := by
      rcases openTarget_of_le policy h target st with hdeep | hsame
      · cases hdeep.symm.trans hopen
      · exact hsame.trans hopen
    rcases hinner (Nat.le_of_succ_le_succ h) with hdeep | hsame
    · cases hresult : expandPieces e left (pieces text) st₁ with
      | mk result st₂ =>
        rw [hresult] at hdeep
        obtain rfl : result = _ := hdeep
        exact .inl (by rw [expandPieces_failed hopen hresult])
    · cases hresult : expandPieces e left (pieces text) st₁ with
      | mk result st₂ =>
        have hresult' := hsame.trans hresult
        cases result with
        | error err =>
          exact .inr (by
            rw [expandPieces_failed hopen hresult, expandPieces_failed hopen' hresult'])
        | ok s =>
          rw [expandPieces_opened hopen hresult, expandPieces_opened hopen' hresult']
          rcases ih st₂.pop h with hdeep | hsame
          · exact .inl (by rw [hdeep]; rfl)
          · exact .inr (by rw [hsame])

/-- With a higher limit on the nesting a page is expanded the same, unless it nests too deep. -/
theorem expand_of_le {policy : Policy} (h : e.policy.maxIncludeDepth ≤ policy.maxIncludeDepth)
    (source : Text) (st : State) :
    (expand e source st).1 = .error (.tooDeep e.policy.maxIncludeDepth) ∨
      expand { e with policy } source st = expand e source st :=
  expandPieces_of_le policy (Int.toNat_le_toNat h) (pieces source) st

end Inclusion

namespace Page

variable {e : Inclusion.Setting} {policy : Policy} {source text : Text}

/-- With a higher limit on the nesting a page is cut into the same nodes, unless it nests too
deep. -/
theorem parse_of_le (hdir : policy.includeDir = e.policy.includeDir)
    (hdepth : e.policy.maxIncludeDepth ≤ policy.maxIncludeDepth) (source : Text) :
    (parse e source).1 = .error (.tooDeep e.policy.maxIncludeDepth) ∨
      parse { e with policy } source = parse e source := by
  have hstart : Inclusion.start { e with policy } = Inclusion.start e := by
    rw [Inclusion.start, Inclusion.start, hdir]
  unfold parse
  rw [hstart]
  cases Inclusion.start e with
  | error err => exact .inr rfl
  | ok st =>
    rcases Inclusion.expand_of_le hdepth source st with hdeep | hsame
    · cases hexpand : Inclusion.expand e source st with
      | mk result st' =>
        rw [hexpand] at hdeep
        obtain rfl : result = _ := hdeep
        exact .inl (by simp only [hexpand])
    · exact .inr (by simp only [hsame])

/-- **Under higher limits** a page is compiled to the same, with the same layout and the same notes,
unless it has failed for a limit. -/
theorem compile_of_le (hdir : policy.includeDir = e.policy.includeDir)
    (htop : e.policy.maxTop ≤ policy.maxTop)
    (hdepth : e.policy.maxIncludeDepth ≤ policy.maxIncludeDepth) (source : Text) :
    (compile e source).result = .error (.inclusion (.tooDeep e.policy.maxIncludeDepth)) ∨
      (∃ count, (compile e source).result = .error (.tooManyTop count e.policy.maxTop)) ∨
      compile { e with policy } source = compile e source := by
  unfold compile
  rcases parse_of_le hdir hdepth source with hdeep | hsame
  · cases hparse : parse e source with
    | mk result notes =>
      rw [hparse] at hdeep
      obtain rfl : result = _ := hdeep
      exact .inl rfl
  rw [hsame]
  cases parse e source with
  | mk result notes =>
    cases result with
    | error err => exact .inr (.inr rfl)
    | ok nodes =>
      dsimp only
      cases Layout.ofNodes nodes with
      | error m => exact .inr (.inr rfl)
      | ok layout =>
        by_cases hmany : e.policy.maxTop < layout.top.length
        · exact .inr (.inl ⟨layout.top.length, by simp only [if_pos hmany]⟩)
        · have hmany' : ¬ policy.maxTop < layout.top.length := by omega
          exact .inr (.inr (by simp only [if_neg hmany, if_neg hmany']))

/-- **Raising limits never changes a page.** A page that is compiled to a module is compiled to that
module, in the same way, under every policy with the same directory and limits that are no
lower. -/
theorem compile_raised (hdir : policy.includeDir = e.policy.includeDir)
    (htop : e.policy.maxTop ≤ policy.maxTop)
    (hdepth : e.policy.maxIncludeDepth ≤ policy.maxIncludeDepth)
    (h : (compile e source).result = .ok text) :
    (compile { e with policy } source).result = .ok text ∧
      compile { e with policy } source = compile e source := by
  rcases compile_of_le hdir htop hdepth source with hdeep | ⟨count, hmany⟩ | hsame
  · cases hdeep.symm.trans h
  · cases hmany.symm.trans h
  · exact ⟨hsame ▸ h, hsame⟩

/-! ### A page under two policies -/

/-- A page that can be expanded is compiled if it has no more `top` directives than it may have. -/
theorem exists_result {st : Inclusion.State} {text : Text} (hstart : Inclusion.start e = .ok st)
    (htext : (Inclusion.expand e source st).1 = .ok text)
    (hcount : (Region.scan text).countP Region.isTop ≤ e.policy.maxTop) :
    ∃ code, (compile e source).result = .ok code := by
  have hincl : ∀ n ∈ Node.ofText text, n.kind ≠ .incl := (Region.tiles_scan text).kind_ne_incl 1 []
  obtain ⟨others, -, hall⟩ := Layout.exists_foldlM_place_withTop hincl {}
  have hnodes : Layout.ofNodes (Node.ofText text) =
      .ok (others.withTop (Layout.hoisted (Node.ofText text))) := hall []
  have htops : (others.withTop (Layout.hoisted (Node.ofText text))).top.length =
      (Region.scan text).countP Region.isTop :=
    (List.length_map _).trans (Region.length_filter_ofRegions _ 1 [])
  refine ⟨Module.assemble (others.withTop (Layout.hoisted (Node.ofText text))), ?_⟩
  rw [compile_of_parse (parse_of_expand hstart htext) hnodes, htops, if_neg (by omega)]

/-- A page that includes a file and has a `top` directive. -/
def shelved : Text := "<?go:include q/a ?>".toList ++ Directive.source ⟨.top, [' '], ['x'], []⟩

private theorem expand_shelved : (Inclusion.expand Inclusion.shelf shelved { stack := ["/p".toList] }).1 =
    .ok ('x' :: Directive.source ⟨.top, [' '], ['x'], []⟩) := by
  have habsent : Inclusion.Absent (Directive.source ⟨.top, [' '], ['x'], []⟩) :=
    Inclusion.absent_of_not_infix (by decide)
  have hpieces : Inclusion.pieces shelved = [.inclusion "q/a".toList,
      .literal (Directive.source ⟨.top, [' '], ['x'], []⟩)] := by
    rw [Inclusion.pieces_of_match (m := ⟨"q/a".toList, Directive.source ⟨.top, [' '], ['x'], []⟩⟩)
      (by decide), Inclusion.pieces_of_absent habsent]
    rfl
  obtain ⟨st, hopen⟩ : ∃ st, Inclusion.openTarget Inclusion.shelf (0 + 1) "q/a".toList
      { stack := ["/p".toList] } = (.ok ['x'], st) := ⟨_, by cbv⟩
  have hinner : Inclusion.expandPieces Inclusion.shelf 0 (Inclusion.pieces ['x']) st =
      (.ok ['x'], st) := by
    rw [Inclusion.pieces_of_absent (Inclusion.absent_of_not_infix (by decide)),
      if_neg (List.cons_ne_nil _ _), Inclusion.expandPieces_literal, Inclusion.expandPieces_nil]
    rfl
  rw [Inclusion.expand, hpieces, show Inclusion.shelf.policy.maxIncludeDepth.toNat = 0 + 1 from rfl,
    Inclusion.expandPieces_opened hopen hinner, Inclusion.expandPieces_literal,
    Inclusion.expandPieces_nil]
  rfl

private theorem countP_shelved :
    (Region.scan ('x' :: Directive.source ⟨.top, [' '], ['x'], []⟩)).countP Region.isTop = 1 := by
  have hmatch : Directive.match? (Directive.source ⟨.top, [' '], ['x'], []⟩) =
      some (⟨.top, [' '], ['x'], []⟩, []) := rfl
  rw [Region.scan_of_none rfl, Region.scan_of_match hmatch, Region.scan]
  rfl

/-- A page that just keeps the limits is compiled, and compiled to the same under higher ones. -/
theorem compile_raised_shelf :
    let e := Inclusion.shelf
    let policy : Policy := { e.policy with maxTop := 2, maxIncludeDepth := 10 }
    policy.includeDir = e.policy.includeDir ∧ e.policy.maxTop ≤ policy.maxTop ∧
      e.policy.maxIncludeDepth ≤ policy.maxIncludeDepth ∧
      ∃ text, (compile e shelved).result = .ok text ∧
        (compile { e with policy } shelved).result = .ok text ∧
        compile { e with policy } shelved = compile e shelved := by
  intro e policy
  have hdir : policy.includeDir = e.policy.includeDir := rfl
  have htop : e.policy.maxTop ≤ policy.maxTop := by decide
  have hdepth : e.policy.maxIncludeDepth ≤ policy.maxIncludeDepth := by decide
  have hstart : Inclusion.start e = .ok { stack := ["/p".toList] } := by cbv
  obtain ⟨code, hresult⟩ := exists_result hstart expand_shelved (by rw [countP_shelved]; decide)
  exact ⟨hdir, htop, hdepth, code, hresult, compile_raised hdir htop hdepth hresult⟩

end Page

end ServerPages
