import ServerPages.Command.Compile
import ServerPages.Proofs.Inclusion.Depth
import ServerPages.Proofs.Module.Hoisting
import ServerPages.Proofs.Text.Utf8

/-!
# Pages that do not compile

The compiling command takes a page through one stage after the other: it reads the list of modules
that may be imported and the page, compiles the page and checks what it imports. The first stage
that fails decides how the command ends (`Command.Compile.Fails`). It knows about most failures:
then it reports the failure in one line, and nothing else has been written but the notes that its
verbosity asks for. The failures that it does not know about break it off
(`Command.Compile.Failure.Escapes`): three kinds of unusable files and texts, and the limits of the
interpreter.
-/

namespace ServerPages

namespace Command

namespace Compile

/-! ### Stages -/

/-- What goes wrong in making the module of a page. -/
inductive Failure where
  /-- The page is no file that can be read. -/
  | missing (page : Text)
  | specification (e : AllowList.SpecError)
  /-- The page is no text. -/
  | decoding (fault : Utf8.Fault)
  | compiling (e : CompileError)
  | checking (e : Imports.CheckError)
  /-- A stage reaches a limit of the interpreter. -/
  | exhausted (stage : Stage) (e : Exhaustion)

namespace Failure

/-- A failure in words. -/
def message : Failure → Text
  | .missing page => "Input file not found: ".toList ++ page
  | .specification e => e.message
  | .decoding fault => "Error reading input file: ".toList ++ fault.message
  | .compiling e => e.message
  | .checking e => (LoadError.imports e).message
  | .exhausted _ e => e.text

/-- The command does not know about the failure: a file that is included is no text, the path of
one holds a null character, or the module does; or a limit of the interpreter is reached. -/
inductive Escapes : Failure → Prop
  | text (fault : Utf8.Fault) : Escapes (.compiling (.inclusion (.decoding fault)))
  | path : Escapes (.compiling (.inclusion (.path .nullCharacter)))
  | code : Escapes (.checking (.program .nullCharacter))
  | exhausted (stage : Stage) (e : Exhaustion) : Escapes (.exhausted stage e)

/-- The trouble that a failure makes. -/
def trouble : Failure → Trouble
  | .compiling e => compileTrouble e
  | .checking e => loadTrouble (.imports e)
  | .exhausted _ e => .broken (.exhausted e)
  | f => .reported f.message

private theorem trouble_of_not_escapes {f : Failure} (h : ¬ f.Escapes)
    (hplaced : ∀ m, f ≠ .compiling (.misplaced m)) : f.trouble = .reported f.message := by
  cases f with
  | missing | specification | decoding => rfl
  | exhausted stage e => exact absurd (.exhausted stage e) h
  | compiling e =>
    show compileTrouble e = .reported e.message
    unfold compileTrouble
    split
    · exact absurd (.text _) h
    · exact absurd .path h
    · next m => exact absurd rfl (hplaced m)
    · rfl
  | checking e =>
    cases e with
    | rejected => rfl
    | program e =>
      cases e with
      | nullCharacter => exact absurd .code h
      | _ => rfl

private theorem trouble_of_escapes {f : Failure} (h : f.Escapes) :
    ∃ b, f.trouble = .broken b ∧ b.text = f.message := by
  cases h with
  | text fault => exact ⟨_, rfl, rfl⟩
  | path => exact ⟨_, rfl, rfl⟩
  | code => exact ⟨_, rfl, rfl⟩
  | exhausted => exact ⟨_, rfl, rfl⟩

end Failure

/-- The content of the page: what stands on standard input, or in the file that is named. -/
inductive Content (s : Session) (r : Request) : Bytes → Prop
  | input (h : r.page = ['-']) : Content s r s.input
  | file {b : Bytes} (h : r.page ≠ ['-'])
      (hread : s.around.tree.read s.around.cwd r.page = .ok b) : Content s r b

/-- What the page is compiled with: what it includes lies in its directory, or in the current one
if it comes from standard input. -/
def setting (s : Session) (r : Request) : Inclusion.Setting :=
  settingIn s r (if r.page = ['-'] then s.around.cwd.path
    else Path.parent (Path.absolute s.around.cwd.path r.page))

/-- The page is text, under a list of modules that it may import. -/
structure Reads (s : Session) (r : Request) (allowed : AllowList) (page : Text) : Prop where
  within : s.limits .allowing = none ∧ s.limits .reading = none
  allowed : AllowList.parse r.allowed = .ok allowed
  page : ∃ b text, Content s r b ∧ Utf8.decode b = .ok text ∧ page = Text.unifyNewlines text

/-- The page is compiled to a text. -/
structure Gives (s : Session) (r : Request) (allowed : AllowList) (code : Text) : Prop where
  within : s.limits .compiling = none
  code : ∃ page, Reads s r allowed page ∧ (Page.compile (setting s r) page).result = .ok code

/-- All stages succeed, and the page becomes a module. -/
def Compiles (s : Session) (r : Request) (code : Text) : Prop :=
  ∃ allowed, Gives s r allowed code ∧ s.limits .checking = none ∧
    Imports.check code allowed (place r) = .ok ()

/-- The stages before one have succeeded. -/
inductive Reaches (s : Session) (r : Request) : Stage → Prop
  | allowing {b : Bytes} (hb : Content s r b) : Reaches s r .allowing
  | reading {b : Bytes} {allowed : AllowList} (hb : Content s r b)
      (hlimit : s.limits .allowing = none) (hallowed : AllowList.parse r.allowed = .ok allowed) :
      Reaches s r .reading
  | compiling {allowed : AllowList} {page : Text} (hpage : Reads s r allowed page) :
      Reaches s r .compiling
  | checking {allowed : AllowList} {code : Text} (hcode : Gives s r allowed code) :
      Reaches s r .checking

/-- A stage fails, those before it having succeeded. -/
inductive Fails (s : Session) (r : Request) : Failure → Prop
  | missing (h : ∀ b, ¬ Content s r b) : Fails s r (.missing r.page)
  | exhausted {stage : Stage} {e : Exhaustion} (hreached : Reaches s r stage)
      (h : s.limits stage = some e) : Fails s r (.exhausted stage e)
  | specification {e : AllowList.SpecError} (hreached : Reaches s r .allowing)
      (hlimit : s.limits .allowing = none) (h : AllowList.parse r.allowed = .error e) :
      Fails s r (.specification e)
  | decoding {b : Bytes} {fault : Utf8.Fault} (hreached : Reaches s r .reading)
      (hlimit : s.limits .reading = none) (hb : Content s r b)
      (h : Utf8.decode b = .error fault) : Fails s r (.decoding fault)
  | compiling {allowed : AllowList} {page : Text} {e : CompileError}
      (hpage : Reads s r allowed page) (hlimit : s.limits .compiling = none)
      (h : (Page.compile (setting s r) page).result = .error e) : Fails s r (.compiling e)
  | checking {allowed : AllowList} {code : Text} {e : Imports.CheckError}
      (hcode : Gives s r allowed code) (hlimit : s.limits .checking = none)
      (h : Imports.check code allowed (place r) = .error e) : Fails s r (.checking e)

variable {s : Session} {line : List Text} {r : Request} {b : Bytes} {f : Failure}

/-! ### Reading -/

/-- A path names a file exactly if its content can be read. -/
theorem isFile_iff {t : FileTree} {cwd : Location} {path : Text} :
    t.isFile cwd path = true ↔ ∃ b, t.read cwd path = .ok b := by
  unfold FileTree.isFile FileTree.read
  by_cases hnull : '\x00' ∈ path
  · simp [hnull]
  · simp only [hnull, not_false_eq_true, decide_true, Bool.true_and, ↓reduceIte]
    split
    · next content h => exact iff_of_true rfl ⟨content, by rw [h]⟩
    · next h =>
      refine iff_of_false Bool.false_ne_true ?_
      rintro ⟨b, hb⟩
      split at hb
      · next content h' => exact h _ _ h'
      all_goals cases hb

theorem Content.unique {b' : Bytes} (h : Content s r b) (h' : Content s r b') : b = b' := by
  cases h with
  | input h =>
    cases h' with
    | input => rfl
    | file hne => exact absurd h hne
  | file hne hread =>
    cases h' with
    | input h => exact absurd h hne
    | file _ hread' => exact Except.ok.inj (hread.symm.trans hread')

private theorem includeDirectory_of_content (h : Content s r b) :
    includeDirectory s.around r = .ok (setting s r).policy.includeDir := by
  unfold includeDirectory setting settingIn
  cases h with
  | input h => simp only [if_pos h]
  | file h hread =>
    have hfile : s.around.tree.isFile s.around.cwd r.page = true := isFile_iff.mpr ⟨b, hread⟩
    simp only [if_neg h, if_pos hfile]

private theorem includeDirectory_of_missing (h : ∀ b, ¬ Content s r b) :
    includeDirectory s.around r = .error (.reported (Failure.missing r.page).message) := by
  have hpage : r.page ≠ ['-'] := fun hpage => h _ (.input hpage)
  have hfile : ¬ s.around.tree.isFile s.around.cwd r.page = true := fun hfile => by
    obtain ⟨b, hb⟩ := isFile_iff.mp hfile
    exact h b (.file hpage hb)
  rw [includeDirectory, if_neg hpage, if_neg hfile]
  rfl

private theorem source_of_content (h : Content s r b) : source s r = match Utf8.decode b with
    | .ok text => .ok (Text.unifyNewlines text)
    | .error fault => .error (.reported (Failure.decoding fault).message) := by
  unfold source
  cases h with
  | input h =>
    simp only [if_pos h]
    rfl
  | file h hread =>
    simp only [if_neg h, hread]
    rfl

private theorem withinLimits_of_none {stage : Stage} (h : s.limits stage = none) :
    withinLimits s stage = .ok () := by
  rw [withinLimits, h]

private theorem withinLimits_of_some {stage : Stage} {e : Exhaustion} (h : s.limits stage = some e) :
    withinLimits s stage = .error (.broken (.exhausted e)) := by
  rw [withinLimits, h]

/-! ### One stage after the other -/

private theorem compiles_or_fails (s : Session) (r : Request) :
    (∃ code, Compiles s r code) ∨ ∃ f, Fails s r f := by
  -- a stage that is reached comes to one of its ends
  by_cases hcontent : ∃ b, Content s r b
  swap
  · exact .inr ⟨_, .missing fun b hb => hcontent ⟨b, hb⟩⟩
  obtain ⟨b, hb⟩ := hcontent
  cases hallowing : s.limits .allowing with
  | some e => exact .inr ⟨_, .exhausted (.allowing hb) hallowing⟩
  | none =>
  cases hallowed : AllowList.parse r.allowed with
  | error e => exact .inr ⟨_, .specification (.allowing hb) hallowing hallowed⟩
  | ok allowed =>
  cases hreading : s.limits .reading with
  | some e => exact .inr ⟨_, .exhausted (.reading hb hallowing hallowed) hreading⟩
  | none =>
  cases htext : Utf8.decode b with
  | error fault => exact .inr ⟨_, .decoding (.reading hb hallowing hallowed) hreading hb htext⟩
  | ok text =>
  have hpage : Reads s r allowed (Text.unifyNewlines text) :=
    ⟨⟨hallowing, hreading⟩, hallowed, b, text, hb, htext, rfl⟩
  cases hcompiling : s.limits .compiling with
  | some e => exact .inr ⟨_, .exhausted (.compiling hpage) hcompiling⟩
  | none =>
  cases hresult : (Page.compile (setting s r) (Text.unifyNewlines text)).result with
  | error e => exact .inr ⟨_, .compiling hpage hcompiling hresult⟩
  | ok code =>
  have hcode : Gives s r allowed code := ⟨hcompiling, _, hpage, hresult⟩
  cases hchecking : s.limits .checking with
  | some e => exact .inr ⟨_, .exhausted (.checking hcode) hchecking⟩
  | none =>
  cases hcheck : Imports.check code allowed (place r) with
  | error e => exact .inr ⟨_, .checking hcode hchecking hcheck⟩
  | ok => exact .inl ⟨code, allowed, hcode, hchecking, hcheck⟩

private theorem exists_of_parse {e : Inclusion.Setting} {page : Text} {nodes : List Node} {notes : List Note}
    (h : Page.parse e page = (.ok nodes, notes)) : ∃ text, nodes = Node.ofText text := by
  unfold Page.parse at h
  split at h
  · cases h
  · split at h
    · cases h
    · next text _ _ =>
      cases h
      exact ⟨text, rfl⟩

/-- Every node of a page can be placed. -/
theorem result_compile_ne_misplaced (e : Inclusion.Setting) (page : Text) (m : Layout.Misplaced) :
    (Page.compile e page).result ≠ .error (.misplaced m) := by
  unfold Page.compile
  split
  · exact nofun
  · next nodes notes hparse =>
    obtain ⟨text, rfl⟩ := exists_of_parse hparse
    have hincl : ∀ n ∈ Node.ofText text, n.kind ≠ .incl :=
      (Region.tiles_scan text).kind_ne_incl 1 []
    obtain ⟨others, -, hall⟩ := Layout.exists_foldlM_place_withTop hincl {}
    have hnodes : Layout.ofNodes (Node.ofText text) =
        .ok (others.withTop (Layout.hoisted (Node.ofText text))) := hall []
    simp only [hnodes]
    split <;> exact nofun

private theorem Fails.ne_misplaced {m : Layout.Misplaced} (h : Fails s r f) :
    f ≠ .compiling (.misplaced m) := by
  cases h with
  | compiling hpage hlimit h =>
    rintro ⟨⟩
    exact result_compile_ne_misplaced _ _ m h
  | _ => exact nofun

/-! ### The notes -/

/-- Reading a page leaves no notes but those that have to be asked for. -/
theorem two_le_level_of_mem_parse (e : Inclusion.Setting) (page : Text) :
    ∀ n ∈ (Page.parse e page).2, 2 ≤ n.level := by
  unfold Page.parse
  split
  · exact nofun
  · next st hstart =>
    have htraces := Inclusion.traces_expandPieces e e.policy.maxIncludeDepth.toNat
      (Inclusion.pieces page) st (Inclusion.traces_of_start hstart)
    have hexpanded : ∀ n ∈ (Inclusion.expand e page st).2.notes.reverse, 2 ≤ n.level :=
      fun n hn => by
        rw [htraces n (List.mem_reverse.mp hn)]
        decide
    split
    · next h => rwa [h] at hexpanded
    · next h =>
      rw [h] at hexpanded
      refine List.forall_mem_append.mpr ⟨hexpanded, fun n hn => ?_⟩
      split at hn
      · obtain ⟨node, -, rfl⟩ := List.mem_map.mp hn
        exact (by decide : (2 : Int) ≤ 3)
      · exact absurd hn List.not_mem_nil

private theorem two_le_level_of_mem_compile (e : Inclusion.Setting) (page : Text) :
    ∀ n ∈ (Page.compile e page).notes, 2 ≤ n.level := by
  have hparse := two_le_level_of_mem_parse e page
  unfold Page.compile
  split
  · next h => rwa [h] at hparse
  · next nodes notes h =>
    rw [h] at hparse
    have hall : ∀ n ∈ notes ++ [⟨2, "Scanned ".toList ++ Decimal.ofNat nodes.length ++
        " page regions".toList⟩], 2 ≤ n.level :=
      List.forall_mem_append.mpr ⟨hparse, List.forall_mem_singleton.mpr (Int.le_refl 2)⟩
    dsimp only
    split
    · exact hall
    · split <;> exact hall

private theorem two_le_level_of_mem_module (s : Session) (r : Request) :
    ∀ n ∈ (module s r).notes, 2 ≤ n.level := by
  have hof {α : Type} (x : Except Trouble α) : ∀ n ∈ (Noted.of x).notes, 2 ≤ n.level := nofun
  have hleave (level : Int) (hlevel : 2 ≤ level) (text : Text) :
      ∀ n ∈ (Noted.leave level text : Noted Trouble Unit).notes, 2 ≤ n.level :=
    List.forall_mem_singleton.mpr hlevel
  have hcompiled (e : Inclusion.Setting) (page : Text) :
      ∀ n ∈ (compiled s e page).notes, 2 ≤ n.level := by
    unfold compiled
    split
    · exact nofun
    · exact two_le_level_of_mem_compile e page
  unfold module
  refine Noted.forall_notes_bind (hof _) fun includeDir _ => ?_
  refine Noted.forall_notes_bind (hleave 2 (by decide) _) fun _ _ => ?_
  refine Noted.forall_notes_bind (hof _) fun allowed _ => ?_
  refine Noted.forall_notes_bind (hleave 2 (by decide) _) fun _ _ => ?_
  refine Noted.forall_notes_bind (hof _) fun _ _ => ?_
  refine Noted.forall_notes_bind (hof _) fun _ _ => ?_
  refine Noted.forall_notes_bind (hof _) fun page _ => ?_
  refine Noted.forall_notes_bind (hleave 2 (by decide) _) fun _ _ => ?_
  refine Noted.forall_notes_bind (hleave 3 (by decide) _) fun _ _ => ?_
  refine Noted.forall_notes_bind (hcompiled _ _) fun code _ => ?_
  refine Noted.forall_notes_bind (hleave 2 (by decide) _) fun _ _ => ?_
  exact Noted.forall_notes_bind (hof _) fun _ _ => hof _

/-- Where the command is not asked for more, no note passes. -/
theorem notes_run_of_fails (hr : request s.settings line = .ok r)
    (h : (module s r).result = .error f.trouble) (hverbosity : r.verbosity ≤ 1) :
    (run s line).notes = [] := by
  rw [run, hr, carryOut]
  dsimp only
  rw [List.filter_eq_nil_iff]
  intro n hn
  rw [perform, Noted.notes_bind_of_error h] at hn
  have hlevel := two_le_level_of_mem_module s r n hn
  simp only [Note.passes, decide_eq_true_eq]
  omega

section Stages

variable (hplain : r.highlights = false)
include hplain

/-- The stages that a page with some content is taken through. -/
theorem result_module_of_content (h : Content s r b) : (module s r).result = do
    let allowed ← allowList s r
    withinLimits s .reading
    let page ← source s r
    let code ← (compiled s (setting s r) page).result
    checkImports s r code allowed
    return code := by
  have hconsistent : consistent r = .ok () := by simp [consistent, hplain]
  simp only [module, Noted.result_bind, Noted.result_of, Noted.result_pure,
    includeDirectory_of_content h, hconsistent]
  rfl

private theorem result_module_of_reads {allowed : AllowList} {page : Text} (h : Reads s r allowed page) :
    (module s r).result = do
      let code ← (compiled s (setting s r) page).result
      checkImports s r code allowed
      return code := by
  obtain ⟨⟨hallowing, hreading⟩, hallowed, b, text, hb, htext, rfl⟩ := h
  rw [result_module_of_content hplain hb, allowList, withinLimits_of_none hallowing, hallowed,
    withinLimits_of_none hreading, source_of_content hb, htext]
  rfl

private theorem result_module_of_gives {allowed : AllowList} {code : Text} (h : Gives s r allowed code) :
    (module s r).result = (checkImports s r code allowed).map fun _ => code := by
  obtain ⟨hlimit, page, hpage, hcode⟩ := h
  rw [result_module_of_reads hplain hpage, compiled, withinLimits_of_none hlimit]
  dsimp only
  rw [hcode]
  show (checkImports s r code allowed >>= fun _ => pure code) = _
  cases checkImports s r code allowed <;> rfl

private theorem result_module_of_reaches {stage : Stage} {e : Exhaustion} (hreached : Reaches s r stage)
    (h : s.limits stage = some e) : (module s r).result = .error (.broken (.exhausted e)) := by
  cases hreached with
  | allowing hb =>
    rw [result_module_of_content hplain hb, allowList, withinLimits_of_some h]
    rfl
  | reading hb hlimit hallowed =>
    rw [result_module_of_content hplain hb, allowList, withinLimits_of_none hlimit, hallowed,
      withinLimits_of_some h]
    rfl
  | compiling hpage =>
    rw [result_module_of_reads hplain hpage, compiled, withinLimits_of_some h]
    rfl
  | checking hcode =>
    rw [result_module_of_gives hplain hcode, checkImports, withinLimits_of_some h]
    rfl

private theorem result_module_of_fails (h : Fails s r f) : (module s r).result = .error f.trouble := by
  cases h with
  | missing h =>
    rw [module, Noted.result_bind, Noted.result_of, includeDirectory_of_missing h]
    rfl
  | exhausted hreached h => exact result_module_of_reaches hplain hreached h
  | specification hreached hlimit h =>
    cases hreached with
    | allowing hb =>
      rw [result_module_of_content hplain hb, allowList, withinLimits_of_none hlimit, h]
      rfl
  | decoding hreached hlimit hb h =>
    cases hreached with
    | reading _ hallowing hallowed =>
      rw [result_module_of_content hplain hb, allowList, withinLimits_of_none hallowing, hallowed,
        withinLimits_of_none hlimit, source_of_content hb, h]
      rfl
  | compiling hpage hlimit h =>
    rw [result_module_of_reads hplain hpage, compiled, withinLimits_of_none hlimit]
    dsimp only
    rw [h]
    rfl
  | checking hcode hlimit h =>
    rw [result_module_of_gives hplain hcode, checkImports, withinLimits_of_none hlimit, h]
    rfl

private theorem result_module_of_compiles {code : Text} (h : Compiles s r code) :
    (module s r).result = .ok code := by
  obtain ⟨allowed, hcode, hlimit, hcheck⟩ := h
  rw [result_module_of_gives hplain hcode, checkImports, withinLimits_of_none hlimit, hcheck]
  rfl

/-- A stage fails exactly if the page does not become a module. -/
theorem exists_fails_iff : (∃ f, Fails s r f) ↔ ¬ ∃ code, Compiles s r code := by
  constructor
  · rintro ⟨f, hf⟩ ⟨code, hcode⟩
    cases (result_module_of_fails hplain hf).symm.trans (result_module_of_compiles hplain hcode)
  · exact (compiles_or_fails s r).resolve_left

private theorem result_run_of_fails (hr : request s.settings line = .ok r) (h : Fails s r f) :
    (run s line).result = conclude name s.around.tree (.error f.trouble) := by
  rw [run, hr, carryOut]
  dsimp only
  rw [perform, Noted.result_bind, result_module_of_fails hplain h]
  rfl

/-- **Pages that do not compile.** A page becomes a module unless one of the stages fails, for
whatever reason. If one fails, the command reports that in one line and exits with 1, and it writes
nothing on standard output and leaves all files as they are, exactly if it knows about the failure;
otherwise it breaks off. Nothing else stands on standard error but notes, and these only if they are
asked for. -/
theorem run_failing (hr : request s.settings line = .ok r) :
    ((∃ f, Fails s r f) ↔ ¬ ∃ code, Compiles s r code) ∧
    ∀ f, Fails s r f →
      ((run s line).result = .ok
          { exit := 1, out := [], err := name ++ ": ".toList ++ f.message ++ ['\n'],
            tree := s.around.tree } ↔
        ¬ f.Escapes) ∧
      (f.Escapes → ∃ b, (run s line).result = .error b ∧ b.text = f.message) ∧
      (r.verbosity ≤ 1 → (run s line).notes = []) := by
  refine ⟨exists_fails_iff hplain, fun f hf => ?_⟩
  have hnotes : r.verbosity ≤ 1 → (run s line).notes = [] :=
    notes_run_of_fails hr (result_module_of_fails hplain hf)
  rw [result_run_of_fails hplain hr hf]
  by_cases hescapes : f.Escapes
  · obtain ⟨b, hb, htext⟩ := Failure.trouble_of_escapes hescapes
    rw [hb]
    exact ⟨iff_of_false nofun (not_not_intro hescapes), fun _ => ⟨b, rfl, htext⟩, hnotes⟩
  · rw [Failure.trouble_of_not_escapes hescapes fun m => hf.ne_misplaced]
    exact ⟨iff_of_true rfl hescapes, fun h => absurd h hescapes, hnotes⟩

end Stages

/-! ### Pages that include what cannot be used -/

/-- A page that begins with the inclusion of a file that cannot be opened is not compiled. -/
theorem compile_of_refused {e : Inclusion.Setting} {page target rest : Text} {err : IncludeError}
    {st st₁ : Inclusion.State} (hstart : Inclusion.start e = .ok st)
    (hmatch : Inclusion.match? page = some ⟨target, rest⟩)
    (h : Inclusion.openTarget e e.policy.maxIncludeDepth.toNat target st = (.error err, st₁)) :
    (Page.compile e page).result = .error (.inclusion err) := by
  have hexpand : Inclusion.expand e page st = (.error err, st₁) := by
    rw [Inclusion.expand, Inclusion.pieces_of_match hmatch, Inclusion.expandPieces_refused h]
  unfold Page.compile Page.parse
  simp only [hstart, hexpand]

/-- The page `p` includes the file `x`, which is no text, and the page `q` includes a file in `p`,
which is no directory. -/
def desk : FileTree := ⟨[
  (["p".toList], .file (Utf8.encode "<?go:include x ?>".toList)),
  (["q".toList], .file (Utf8.encode "<?go:include p/y ?>".toList)),
  (["x".toList], .file [0xFF])]⟩

/-- A command at work on these files. -/
def atDesk : Session where
  around := ⟨desk, []⟩

/-- The request to compile a page. -/
def pageRequest (page : Text) : Request where
  page
  maxTop := 1
  maxIncludeDepth := 10
  allowed := "ALL".toList
  header := "structured".toList

private theorem reads_desk {page text : Text} (hpage : page ≠ ['-'])
    (hread : desk.read [] page = .ok (Utf8.encode text)) (hline : Text.unifyNewlines text = text) :
    Reads atDesk (pageRequest page) .all text where
  within := ⟨rfl, rfl⟩
  allowed := by cbv
  page := ⟨_, text, .file hpage hread, Utf8.decode_encode text, hline.symm⟩

/-- What pages are compiled with at the desk. -/
def deskSetting : Inclusion.Setting where
  tree := desk
  cwd := []
  policy := { includeDir := ['/'] }

private theorem start_desk : Inclusion.start deskSetting = .ok { stack := [['/']] } := by cbv

/-- A page that includes a file in a file is not compiled, and the command reports why. -/
theorem run_failing_directory :
    let f := Failure.compiling (.inclusion (.path (.refused .notDirectory "/p/y".toList)))
    request atDesk.settings [['q']] = .ok (pageRequest ['q']) ∧
      (pageRequest ['q']).highlights = false ∧ Fails atDesk (pageRequest ['q']) f ∧
      (run atDesk [['q']]).result = .ok
        { exit := 1, out := [], err := "gosp2py: [Errno 20] Not a directory: '/p/y'\n".toList,
          tree := desk } ∧
      (run atDesk [['q']]).notes = [] := by
  have hknown : ¬ Failure.Escapes
      (.compiling (.inclusion (.path (.refused .notDirectory "/p/y".toList)))) := nofun
  intro f
  have hreads : Reads atDesk (pageRequest ['q']) .all "<?go:include p/y ?>".toList :=
    reads_desk (by decide) (by cbv) (by decide)
  have hopen : Inclusion.openTarget deskSetting 10 "p/y".toList { stack := [['/']] } =
      (.error (.path (.refused .notDirectory "/p/y".toList)), { stack := [['/']] }) := by cbv
  have hmatch : Inclusion.match? "<?go:include p/y ?>".toList = some ⟨"p/y".toList, []⟩ := by
    decide
  have hr : request atDesk.settings [['q']] = .ok (pageRequest ['q']) := rfl
  have hfails : Fails atDesk (pageRequest ['q']) f :=
    .compiling hreads rfl (compile_of_refused start_desk hmatch hopen)
  obtain ⟨-, hrun⟩ := run_failing rfl hr
  obtain ⟨hreported, -, hnotes⟩ := hrun f hfails
  exact ⟨hr, rfl, hfails, hreported.mpr hknown, hnotes (Nat.le_refl 1)⟩

/-- **A failure that is not reported.** Where a page includes a file that is no text, the command
reports nothing. -/
theorem run_undecodable :
    request atDesk.settings [['p']] = .ok (pageRequest ['p']) ∧
      (pageRequest ['p']).highlights = false ∧
      (∃ fault, Fails atDesk (pageRequest ['p'])
        (.compiling (.inclusion (.decoding fault)))) ∧
      ¬ ∃ message, (run atDesk [['p']]).result = .ok
        { exit := 1, out := [], err := name ++ ": ".toList ++ message ++ ['\n'],
          tree := desk } := by
  have hreads : Reads atDesk (pageRequest ['p']) .all "<?go:include x ?>".toList :=
    reads_desk (by decide) (by cbv) (by decide)
  obtain ⟨fault, hopen⟩ : ∃ fault, Inclusion.openTarget deskSetting 10 ['x']
      { stack := [['/']] } = (.error (.decoding fault), { stack := [['/']] }) := ⟨_, by cbv⟩
  have hmatch : Inclusion.match? "<?go:include x ?>".toList = some ⟨['x'], []⟩ := by decide
  have hr : request atDesk.settings [['p']] = .ok (pageRequest ['p']) := rfl
  have hfails : Fails atDesk (pageRequest ['p']) (.compiling (.inclusion (.decoding fault))) :=
    .compiling hreads rfl (compile_of_refused start_desk hmatch hopen)
  refine ⟨hr, rfl, ⟨fault, hfails⟩, ?_⟩
  rintro ⟨message, hrun⟩
  cases (result_run_of_fails rfl hr hfails).symm.trans hrun

end Compile

end Command

end ServerPages
