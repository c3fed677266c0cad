import ServerPages.Execution.Module
import ServerPages.Proofs.Module.Writes

/-!
# Running modules that write scalars

A module whose body does nothing but write scalars that a program may hold is a page: it loads, and
whatever surrounds the page and whatever is asked of it, it writes the values of these scalars one
after the other, sends no event, and ends without a fault (`Module.load_moduleLines`). With an
integer that has too many digits it does not compile (`Module.load_of_not_fits`).
-/

namespace ServerPages

namespace Execution

open Code Code.Expression ServerPages.Frame

variable {α β : Type} {w w' : World} {d line : Nat}

/-- A run that gives a value goes on with what follows. -/
theorem Run.bind_ok {x : Run α} {f : α → Run β} {a : α} (h : x w = (.ok a, w')) :
    (x >>= f) w = f a w' := by
  show (ExceptT.bindCont f (x w).1 : StateM World _) (x w).2 = f a w'
  rw [h]
  rfl

/-- A statement that goes on to the next is followed by the next. -/
theorem inTurn_cons {run : Tree → Run Flow} {t : Tree} {ts : List Tree}
    (h : run t w = (.ok .next, w')) : inTurn run (t :: ts) w = inTurn run ts w' :=
  Run.bind_ok h

/-! ### Writing -/

/-- The world with more bytes written to the body. -/
def World.write (w : World) (b : Bytes) : World :=
  { w with stage := { w.stage with body := w.stage.body ++ b } }

@[simp]
theorem World.scope_write (w : World) (b : Bytes) : (w.write b).scope = w.scope := rfl

@[simp]
theorem World.write_nil (w : World) : w.write [] = w := by
  simp [write]

@[simp]
theorem World.write_write (w : World) (a b : Bytes) : (w.write a).write b = w.write (a ++ b) := by
  simp [write]

/-- The bytes that writing scalars comes to. -/
def bytesOf (ls : List Scalar) : Bytes := ls.flatMap fun l => l.value.written

private theorem evaluate_tree (l : Scalar) (line : Nat) :
    evaluate (d + 2) (l.tree line) w = (.ok (.value l.value), w) := by
  cases l with
  | text hq h => rfl
  | integer negative n => cases negative <;> rfl

/-- Values are written one after the other. -/
theorem forM_written (vs : List Value) :
    ((vs.map Thing.value).forM fun t => do Run.act (Act.write (← t.written)) : Run Unit) w =
      (.ok (), w.write (vs.flatMap Value.written)) := by
  induction vs generalizing w with
  | nil => exact congrArg (Prod.mk (Except.ok ())) w.write_nil.symm
  | cons v vs ih =>
    have hfirst : (do Run.act (Act.write (← (Thing.value v).written)) : Run Unit) w =
        (.ok (), w.write v.written) := rfl
    refine (Run.bind_ok hfirst).trans (ih.trans ?_)
    rw [World.write_write, List.flatMap_cons]

private theorem arguments_cons {eval : Tree → Run Thing} {t : Tree} {ts : List Tree} {a : Thing}
    {args : Arguments} {w₁ w₂ : World} (hkeyword : ∀ name, t.shape ≠ .keyword name)
    (ht : eval t w = (.ok a, w₁)) (hts : arguments eval ts w₁ = (.ok args, w₂)) :
    arguments eval (t :: ts) w = (.ok { args with placed := a :: args.placed }, w₂) := by
  have hcons : arguments eval (t :: ts) = do
      let first ← eval t
      let rest ← arguments eval ts
      return { rest with placed := first :: rest.placed } := by
    obtain ⟨shape, line, parts⟩ := t
    rw [arguments]
    exact fun name _ _ h => hkeyword name (congrArg Tree.shape h)
  rw [hcons]
  exact (Run.bind_ok ht).trans ((Run.bind_ok hts).trans rfl)

private theorem arguments_scalars (ls : List Scalar) (line : Nat) :
    arguments (evaluate (d + 2)) (ls.map (Scalar.tree line)) w =
      (.ok ⟨(ls.map Scalar.value).map .value, []⟩, w) := by
  induction ls with
  | nil => rfl
  | cons l ls ih =>
    refine arguments_cons (fun name => ?_) (evaluate_tree l line) ih
    cases l with
    | text hq h => simp [Scalar.tree, Tree.shape]
    | integer negative n => cases negative <;> simp [Scalar.tree, Tree.shape]

/-- What the names of a page's code stand for while it writes. -/
structure World.Writes (w : World) : Prop where
  library : w.scope.find "gosp".toList = .ok .library
  output : w.scope.find "gosp_out".toList = .ok .output
  channel : w.scope.find "gosp_meta".toList = .ok .channel

private theorem find_ok {name : Text} {t : Thing} (h : w.scope.find name = .ok t) :
    Run.find name w = (.ok t, w) := by
  show Run.ofExcept (w.scope.find name) w = _
  rw [h]
  rfl

private theorem evaluate_name {name : Text} {t : Thing} (h : w.scope.find name = .ok t) :
    evaluate (d + 1) (nameTree line name) w = (.ok t, w) := find_ok h

/-- A statement that writes scalars writes their values. -/
theorem run_write (hw : w.Writes) (ls : List Scalar) (line : Nat) :
    run (d + 4) (writeTree ls line) w = (.ok .next, w.write (bytesOf ls)) := by
  have hfunction : evaluate (d + 2) (.node (.attribute "fprint".toList) line
      [nameTree line "gosp".toList]) w = (.ok (.service "fprint".toList), w) :=
    (Run.bind_ok (evaluate_name hw.library)).trans rfl
  have harguments : arguments (evaluate (d + 2)) (nameTree line "gosp_out".toList ::
      ls.map (Scalar.tree line)) w =
        (.ok ⟨.output :: (ls.map Scalar.value).map .value, []⟩, w) :=
    arguments_cons (by simp [nameTree, Tree.shape]) (evaluate_name hw.output)
      (arguments_scalars ls line)
  have hservice : callService "fprint".toList ⟨.output :: (ls.map Scalar.value).map .value, []⟩ w =
      (.ok (), w.write (bytesOf ls)) := by
    rw [bytesOf, ← List.flatMap_map]
    exact forM_written _
  have hcall : evaluate (d + 3) (memberCall line "gosp".toList "fprint".toList
      (nameTree line "gosp_out".toList :: ls.map (Scalar.tree line))) w =
        (.ok (.value .none), w.write (bytesOf ls)) :=
    (Run.bind_ok hfunction).trans ((Run.bind_ok harguments).trans
      ((Run.bind_ok hservice).trans rfl))
  exact (Run.bind_ok hcall).trans rfl

/-- Statements that write scalars write their values one after the other. -/
theorem inTurn_writeTrees (hw : w.Writes) (lss : List (List Scalar)) (line : Nat) :
    inTurn (run (d + 4)) (writeTrees line lss) w = (.ok .next, w.write (bytesOf lss.flatten)) := by
  induction lss generalizing w line with
  | nil => simp [writeTrees, inTurn, bytesOf]; rfl
  | cons ls lss ih =>
    have hrest := ih (w := w.write (bytesOf ls)) ⟨hw.library, hw.output, hw.channel⟩ (line + 1)
    rw [World.write_write] at hrest
    refine (inTurn_cons (run_write hw ls line)).trans (hrest.trans ?_)
    simp [bytesOf]

/-! ### The guard -/

/-- The world with the channel closed. -/
def World.close (w : World) : World := { w with stage := { w.stage with closed := true } }

private theorem outcome_ok {x : Run α} {a : α} (h : x w = (.ok a, w')) :
    x.outcome w = (.ok (.ok a), w') := by
  show ((.ok (x w).1, (x w).2) : Except Fault (Except Fault α) × World) = _
  rw [h]

/-- A block that goes well and what follows it in any case. -/
theorem guarded_ok {body final : Run Flow} {handler : Fault → Run Flow} {w'' : World}
    (hbody : body w = (.ok .next, w')) (hfinal : final w' = (.ok .next, w'')) :
    guarded body (return .next) final handler w = (.ok .next, w'') := by
  have hresult : (return .next : Run Flow).outcome w' = (.ok (.ok .next), w') := rfl
  exact (Run.bind_ok (outcome_ok hbody)).trans ((Run.bind_ok hresult).trans
    ((Run.bind_ok hfinal).trans rfl))

private theorem run_closeTree (hw : w.Writes) (line : Nat) :
    run (d + 4) (closeTree line) w = (.ok .next, w.close) := by
  have hfunction : evaluate (d + 2) (.node (.attribute "close".toList) (line + 3)
      [nameTree (line + 3) "gosp_meta".toList]) w = (.ok .closing, w) :=
    (Run.bind_ok (evaluate_name hw.channel)).trans rfl
  have hcall : evaluate (d + 3) (memberCall (line + 3) "gosp_meta".toList "close".toList []) w =
      (.ok (.value .none), w.close) :=
    (Run.bind_ok hfunction).trans rfl
  exact (Run.bind_ok hcall).trans rfl

private theorem run_tryTree {body : List Tree} (hbody : inTurn (run (d + 4)) body w = (.ok .next, w'))
    (hw : w'.Writes) (line : Nat) :
    run (d + 5) (tryTree line body) w = (.ok .next, w'.close) := by
  have htree : run (d + 5) (tryTree line body) =
      guarded (inTurn (run (d + 4)) body) (return .next) (inTurn (run (d + 4)) [closeTree line])
        fun f => handle (evaluate (d + 4)) (inTurn (run (d + 4))) f [exceptTree line] := by
    rw [tryTree, run]
    simp [inTurn]
  rw [htree]
  exact guarded_ok hbody ((inTurn_cons (run_closeTree hw line)).trans rfl)

/-! ### The function -/

/-- The world with a name bound. -/
def World.bind (w : World) (name : Text) (t : Thing) : World :=
  { w with scope := w.scope.bind name t }

private theorem Scope.find_bind (s : Scope) {a b : Text} (t : Thing) (h : b ≠ a) :
    (s.bind a t).find b = s.find b := by
  have hlookup : ((a, t) :: s.bound).lookup b = s.bound.lookup b := by
    rw [List.lookup_cons, beq_eq_false_iff_ne.2 h]
  simp only [Scope.find, Scope.bind, hlookup]

theorem World.Writes.bind (hw : w.Writes) {name : Text} (t : Thing)
    (h : name ∉ ["gosp".toList, "gosp_out".toList, "gosp_meta".toList]) :
    (w.bind name t).Writes := by
  simp only [List.mem_cons, List.not_mem_nil, or_false, not_or] at h
  obtain ⟨hlibrary, houtput, hchannel⟩ := h
  exact ⟨(Scope.find_bind _ t (Ne.symm hlibrary)).trans hw.library,
    (Scope.find_bind _ t (Ne.symm houtput)).trans hw.output,
    (Scope.find_bind _ t (Ne.symm hchannel)).trans hw.channel⟩

/-- A statement that binds another name leaves the page writing. -/
theorem run_bind (hw : w.Writes) {t : Tree} {name : Text}
    (ht : ∃ thing, run d t w = (.ok .next, w.bind name thing))
    (hname : name ∉ ["gosp".toList, "gosp_out".toList, "gosp_meta".toList]) :
    ∃ w' : World, w'.Writes ∧ w'.stage = w.stage ∧ run d t w = (.ok .next, w') := by
  obtain ⟨thing, hrun⟩ := ht
  exact ⟨w.bind name thing, hw.bind thing hname, rfl, hrun⟩

/-- The statements of the function that writes a page, with those in its guard; what the guard ends
with stands on lines from some number on. -/
def entryStatements (line : Nat) (body : List Tree) : List Tree :=
  [purposeTree, statusTree, mimeTree, fieldTree, openTree, tryTree line body]

/-- The function defines its helpers, writes and closes the channel. -/
theorem inTurn_entryStatements (hw : w.Writes) (lss : List (List Scalar)) (line : Nat) :
    ∃ after, inTurn (run (d + 5)) (entryStatements line (passTree :: writeTrees 28 lss)) w =
      (.ok .next, after) ∧ after.stage = (w.write (bytesOf lss.flatten)).close.stage := by
  have hpurpose : run (d + 5) purposeTree w = (.ok .next, w) := rfl
  obtain ⟨w₁, hw₁, hstage₁, hstatus⟩ := run_bind hw (d := d + 5) (t := statusTree) ⟨_, rfl⟩
    (by decide)
  obtain ⟨w₂, hw₂, hstage₂, hmime⟩ := run_bind hw₁ (d := d + 5) (t := mimeTree) ⟨_, rfl⟩
    (by decide)
  obtain ⟨w₃, hw₃, hstage₃, hfield⟩ := run_bind hw₂ (d := d + 5) (t := fieldTree) ⟨_, rfl⟩
    (by decide)
  obtain ⟨w₄, hw₄, hstage₄, hopen⟩ := run_bind hw₃ (d := d + 5) (t := openTree) ⟨_, rfl⟩
    (by decide)
  have hbody : inTurn (run (d + 4)) (passTree :: writeTrees 28 lss) w₄ =
      (.ok .next, w₄.write (bytesOf lss.flatten)) :=
    (inTurn_cons rfl).trans (inTurn_writeTrees hw₄ lss 28)
  have hguard : run (d + 5) (tryTree line (passTree :: writeTrees 28 lss)) w₄ =
      (.ok .next, (w₄.write (bytesOf lss.flatten)).close) :=
    run_tryTree hbody ⟨hw₄.library, hw₄.output, hw₄.channel⟩ line
  refine ⟨(w₄.write (bytesOf lss.flatten)).close, ?_, ?_⟩
  · exact (inTurn_cons hpurpose).trans ((inTurn_cons hstatus).trans ((inTurn_cons hmime).trans
      ((inTurn_cons hfield).trans ((inTurn_cons hopen).trans ((inTurn_cons hguard).trans rfl)))))
  · simp [World.close, World.write, hstage₁, hstage₂, hstage₃, hstage₄]

/-! ### The names of the function -/

private theorem boundNamesAll_append (ts us : List Tree) :
    Tree.boundNamesAll (ts ++ us) = Tree.boundNamesAll ts ++ Tree.boundNamesAll us := by
  induction ts with
  | nil => rfl
  | cons t ts ih => simp [Tree.boundNamesAll, ih]

private theorem boundNamesAll_scalars (ls : List Scalar) (line : Nat) :
    Tree.boundNamesAll (ls.map (Scalar.tree line)) = [] := by
  induction ls with
  | nil => rfl
  | cons l ls ih =>
    have hone : Tree.boundNames (l.tree line) = [] := by
      cases l with
      | text hq h => rfl
      | integer negative n => cases negative <;> rfl
    rw [List.map_cons, Tree.boundNamesAll, hone, ih]
    rfl

/-- Writing binds no name. -/
theorem boundNamesAll_writeTrees (lss : List (List Scalar)) (line : Nat) :
    Tree.boundNamesAll (writeTrees line lss) = [] := by
  induction lss generalizing line with
  | nil => rfl
  | cons ls lss ih =>
    have hone : Tree.boundNames (writeTree ls line) = [] := by
      simp [writeTree, memberCall, nameTree, Tree.boundNames, Tree.boundNamesAll, Tree.ownNames,
        Tree.isScope, boundNamesAll_scalars]
    rw [writeTrees, Tree.boundNamesAll, hone, ih]
    rfl

/-- The names that the function binds. -/
theorem boundNamesAll_entryStatements (lss : List (List Scalar)) (line : Nat) :
    Tree.boundNamesAll (entryStatements line (passTree :: writeTrees 28 lss)) =
      ["gosp_set_http_status".toList, "gosp_set_mime_type".toList,
        "gosp_set_header_field".toList, "gosp_open".toList, "gosp_exc".toList] := by
  have hhelpers : Tree.boundNamesAll [purposeTree, statusTree, mimeTree, fieldTree, openTree] =
      ["gosp_set_http_status".toList, "gosp_set_mime_type".toList,
        "gosp_set_header_field".toList, "gosp_open".toList] := rfl
  have hguard : Tree.boundNames (tryTree line (passTree :: writeTrees 28 lss)) =
      ["gosp_exc".toList] := by
    have hparts : Tree.boundNames (tryTree line (passTree :: writeTrees 28 lss)) =
        Tree.boundNamesAll ([passTree] ++ writeTrees 28 lss ++ [exceptTree line] ++
          [closeTree line]) := rfl
    rw [hparts]
    simp only [boundNamesAll_append, boundNamesAll_writeTrees]
    rfl
  have hsplit : entryStatements line (passTree :: writeTrees 28 lss) =
      [purposeTree, statusTree, mimeTree, fieldTree, openTree] ++
        [tryTree line (passTree :: writeTrees 28 lss)] := rfl
  rw [hsplit, boundNamesAll_append, hhelpers, Tree.boundNamesAll, hguard]
  rfl

/-! ### The module -/

/-- The function that writes a page. -/
def entryThing (lss : List (List Scalar)) : Thing :=
  .function Module.entryPoint ["gosp_req".toList, "gosp_out".toList, "gosp_meta".toList] []
    (entryStatements (28 + lss.length) (passTree :: writeTrees 28 lss)) []

/-- What the names of the module stand for. -/
def moduleBindings (lss : List (List Scalar)) : Bindings :=
  [(Module.entryPoint, entryThing lss), ("gosp".toList, .library)]

private theorem bindings_moduleTree (lss : List (List Scalar)) :
    Module.bindings (moduleTree lss) = .ok (moduleBindings lss) := by
  obtain ⟨n, hn⟩ : ∃ n, Module.depth (moduleTree lss) = n + 100 := ⟨_, rfl⟩
  have himport : run (n + 100) importTree {} =
      (.ok .next, ({} : World).bind "gosp".toList .library) := rfl
  have hentry : run (n + 100) (entryTree (28 + lss.length) (passTree :: writeTrees 28 lss))
      (({} : World).bind "gosp".toList .library) =
        (.ok .next, (({} : World).bind "gosp".toList .library).bind Module.entryPoint
          (entryThing lss)) := rfl
  have hrun : (inTurn (run (Module.depth (moduleTree lss))) (moduleTree lss).parts).run.run {} =
      (.ok .next, (({} : World).bind "gosp".toList .library).bind Module.entryPoint
        (entryThing lss)) := by
    rw [hn]
    exact (inTurn_cons himport).trans ((inTurn_cons hentry).trans rfl)
  rw [Module.bindings, hrun]
  rfl

private theorem within_ok {s : Scope} {x : Run α} {a : α} (h : x { w with scope := s } = (.ok a, w')) :
    Run.within s x w = (.ok a, { w' with scope := w.scope }) := by
  show ((x { w with scope := s }).1, { (x { w with scope := s }).2 with scope := w.scope }) = _
  rw [h]

/-- The scope of the function for a visit, before it has run a statement. -/
def entryScope (lss : List (List Scalar)) (visit : Thing) : Scope where
  function := Module.entryPoint
  own := some (["gosp_req".toList, "gosp_out".toList, "gosp_meta".toList] ++
    Tree.boundNamesAll (entryStatements (28 + lss.length) (passTree :: writeTrees 28 lss)))
  bound := [("gosp_req".toList, visit), ("gosp_out".toList, .output),
    ("gosp_meta".toList, .channel)]
  globals := moduleBindings lss

private theorem writes_entryScope (lss : List (List Scalar)) (visit : Thing) (stage : Stage)
    (directory : Text) : World.Writes ⟨stage, entryScope lss visit, directory⟩ := by
  have hown : (entryScope lss visit).own = some ["gosp_req".toList, "gosp_out".toList,
      "gosp_meta".toList, "gosp_set_http_status".toList, "gosp_set_mime_type".toList,
      "gosp_set_header_field".toList, "gosp_open".toList, "gosp_exc".toList] := by
    rw [entryScope, boundNamesAll_entryStatements]
    rfl
  constructor
  all_goals
    simp only [Scope.find, hown]
    rfl

/-- Calling the function writes the values of the scalars and closes the channel. -/
theorem call_entryThing (lss : List (List Scalar)) (visit : Thing)
    (hw : w.scope = { bound := moduleBindings lss }) :
    ∃ after, call (d + 6) (entryThing lss) ⟨[visit, .output, .channel], []⟩ w =
      (.ok (.value .none), after) ∧ after.stage = (w.write (bytesOf lss.flatten)).close.stage := by
  obtain ⟨stage, scope, directory⟩ := w
  obtain rfl : scope = { bound := moduleBindings lss } := hw
  obtain ⟨after, hafter, hstage⟩ :=
    inTurn_entryStatements (d := d) (writes_entryScope lss visit stage directory) lss
      (28 + lss.length)
  have hwithin : Run.within (entryScope lss visit) (inTurn (run (d + 5))
      (entryStatements (28 + lss.length) (passTree :: writeTrees 28 lss)))
        ⟨stage, { bound := moduleBindings lss }, directory⟩ =
          (.ok .next, { after with scope := { bound := moduleBindings lss } }) :=
    within_ok hafter
  refine ⟨{ after with scope := { bound := moduleBindings lss } }, ?_, hstage⟩
  refine (Run.bind_ok (a := (entryScope lss visit).bound) rfl).trans ?_
  have hscope : (get : Run World) ⟨stage, { bound := moduleBindings lss }, directory⟩ =
      (.ok ⟨stage, { bound := moduleBindings lss }, directory⟩,
        ⟨stage, { bound := moduleBindings lss }, directory⟩) := rfl
  exact (Run.bind_ok hscope).trans ((Run.bind_ok hwithin).trans rfl)

/-! ### Places -/

private theorem arePlaced_append (place : Nat → Place) (i : Nat) (ts us : List Tree) :
    Tree.arePlaced place i (ts ++ us) =
      (Tree.arePlaced place i ts && Tree.arePlaced place (i + ts.length) us) := by
  induction ts generalizing i with
  | nil => rfl
  | cons t ts ih =>
    rw [List.cons_append, Tree.arePlaced, ih, Tree.arePlaced, Bool.and_assoc, List.length_cons,
      Nat.add_right_comm, Nat.add_assoc]

private theorem isPlaced_scalar {p : Place} (hp : p.depth ≤ Place.depthLimit) (l : Scalar) (line : Nat) :
    Tree.isPlaced p (l.tree line) = true := by
  cases l with
  | text hq h => simp [Scalar.tree, Tree.isPlaced, Tree.arePlaced, Place.admits, hp]
  | integer negative n =>
    cases negative <;>
      simp [Scalar.tree, Tree.isPlaced, Tree.arePlaced, Place.admits, Place.part, hp]

private theorem arePlaced_scalars {p : Place} (hp : p.depth ≤ Place.depthLimit) (ls : List Scalar)
    (line i : Nat) : Tree.arePlaced (fun _ => p) i (ls.map (Scalar.tree line)) = true := by
  induction ls generalizing i with
  | nil => rfl
  | cons l ls ih => simp [Tree.arePlaced, isPlaced_scalar hp, ih]

private theorem isPlaced_writeTree {p : Place} (hp : p.depth ≤ Place.depthLimit) (ls : List Scalar)
    (line : Nat) : Tree.isPlaced p (writeTree ls line) = true := by
  have hcall : ∀ count, p.part .call count = fun _ => p := fun _ => rfl
  simp [writeTree, memberCall, nameTree, Tree.isPlaced, Tree.arePlaced, Place.admits, Place.part,
    hp, hcall, arePlaced_scalars hp]

private theorem arePlaced_writeTrees {place : Nat → Place} (h : ∀ i, (place i).depth ≤ Place.depthLimit)
    (lss : List (List Scalar)) (line i : Nat) :
    Tree.arePlaced place i (writeTrees line lss) = true := by
  induction lss generalizing line i with
  | nil => rfl
  | cons ls lss ih => simp [writeTrees, Tree.arePlaced, isPlaced_writeTree (h i), ih]

/-- Blocks that guard lie at most two deeper. -/
theorem depth_part_try (p : Place) (body handlers orelse count i : Nat) :
    (p.part (.tryBlock body handlers orelse) count i).depth ≤ p.depth + 2 := by
  simp only [Place.part]
  repeat' split
  all_goals simp [Place.guarded]

private theorem isPlaced_exceptTree {p : Place} (hp : p.depth < Place.depthLimit) (line : Nat) :
    Tree.isPlaced p (exceptTree line) = true := by
  have hle : p.depth ≤ Place.depthLimit := Nat.le_of_lt hp
  have hinner : p.depth + 1 ≤ Place.depthLimit := hp
  simp [exceptTree, memberCall, nameTree, Tree.isPlaced, Tree.arePlaced, Place.admits, Place.part,
    Place.guarded, hle, hinner]

private theorem isPlaced_tryTree (lss : List (List Scalar)) (line : Nat) :
    Tree.isPlaced { inFunction := true } (tryTree line (passTree :: writeTrees 28 lss)) = true := by
  have hdepth : ∀ count i, (Place.part { inFunction := true }
      (.tryBlock (passTree :: writeTrees 28 lss).length 1 0) count i).depth ≤ 2 :=
    fun count i => depth_part_try _ _ _ _ _ _
  have hle : ∀ count i, (Place.part { inFunction := true }
      (.tryBlock (passTree :: writeTrees 28 lss).length 1 0) count i).depth ≤ Place.depthLimit :=
    fun count i => Nat.le_trans (hdepth count i) (by decide)
  have hlt : ∀ count i, (Place.part { inFunction := true }
      (.tryBlock (passTree :: writeTrees 28 lss).length 1 0) count i).depth < Place.depthLimit :=
    fun count i => Nat.lt_of_le_of_lt (hdepth count i) (by decide)
  have hpass : ∀ p : Place, p.depth ≤ Place.depthLimit → Tree.isPlaced p passTree = true :=
    fun p hp => by simp [passTree, Tree.isPlaced, Tree.arePlaced, Place.admits, hp]
  have hclose : ∀ p : Place, p.depth ≤ Place.depthLimit →
      Tree.isPlaced p (closeTree line) = true := fun p hp => by
    simp [closeTree, memberCall, nameTree, Tree.isPlaced, Tree.arePlaced, Place.admits, Place.part,
      hp]
  simp only [tryTree, Tree.isPlaced, arePlaced_append, Tree.arePlaced, hpass _ (hle _ _),
    arePlaced_writeTrees (hle _), isPlaced_exceptTree (hlt _ _), hclose _ (hle _ _)]
  rfl

private theorem isPlaced_function {p : Place} (hp : p.depth ≤ Place.depthLimit) (name : Text)
    (body line : Nat) (ts : List Tree) : Tree.isPlaced p (.node (.function name body) line ts) =
      Tree.arePlaced (fun _ => { inFunction := true }) 0 ts := by
  have hpart : ∀ count, p.part (.function name body) count = fun _ => { inFunction := true } :=
    fun _ => rfl
  simp [Tree.isPlaced, Place.admits, hp, hpart]

/-- Every statement of the module stands where it may. -/
theorem isPlaced_moduleTree (lss : List (List Scalar)) : (moduleTree lss).isPlaced {} = true := by
  have hframe : Tree.arePlaced (fun _ => { inFunction := true }) 0
      [parameters 7 ["gosp_req".toList, "gosp_out".toList, "gosp_meta".toList] [], purposeTree,
        statusTree, mimeTree, fieldTree, openTree] = true := rfl
  have hentry : Tree.isPlaced {} (entryTree (28 + lss.length) (passTree :: writeTrees 28 lss)) =
      Tree.arePlaced (fun _ => { inFunction := true }) 0
        ([parameters 7 ["gosp_req".toList, "gosp_out".toList, "gosp_meta".toList] [], purposeTree,
          statusTree, mimeTree, fieldTree, openTree] ++
            [tryTree (28 + lss.length) (passTree :: writeTrees 28 lss)]) :=
    isPlaced_function (by decide) _ _ _ _
  have himport : Tree.isPlaced {} importTree = true := rfl
  have hmodule : (moduleTree lss).isPlaced {} = (Tree.isPlaced {} importTree &&
      (Tree.isPlaced {} (entryTree (28 + lss.length) (passTree :: writeTrees 28 lss)) && true)) :=
    rfl
  rw [hmodule, himport, hentry, arePlaced_append, hframe, Tree.arePlaced, isPlaced_tryTree]
  rfl

end Execution

/-! ### The page -/

namespace Module

open Execution ServerPages.Frame

/-- A page performs as the call of its function does. -/
theorem ofAct_page {depth : Nat} {globals : Bindings} {entry : Thing} {stage : Stage}
    (h : ∀ visit directory, ∃ result after, call depth entry ⟨[visit, .output, .channel], []⟩
      { scope := { bound := globals }, directory } = (.ok result, after) ∧ after.stage = stage)
    (around : Surroundings) (request : Option Request) :
    Performance.ofAct (page depth globals entry around request) = ⟨stage, none⟩ := by
  let outcome (r : Except Fault Thing × World) := (r.1.map fun _ => (), r.2.stage)
  have hrun : (page depth globals entry around request).run.run {} = (.ok (), stage) := by
    cases request with
    | none =>
      obtain ⟨result, after, hcall, rfl⟩ := h (.value .none) around.cwd.path
      exact congrArg outcome hcall
    | some r =>
      obtain ⟨result, after, hcall, rfl⟩ := h (.request r) around.cwd.path
      exact congrArg outcome hcall
  rw [Performance.ofAct, hrun]

/-- **Modules that write scalars are pages.** Such a module loads if a program may hold the scalars.
Its page writes their values in their order, whatever surrounds it and whatever is asked of it,
sends no event, closes the channel and ends without a fault. -/
theorem load_moduleLines {lss : List (List Code.Scalar)} (h : fits lss = true) :
    ∃ page, load ((moduleLines lss).flatMap Code.Line.text) = .ok page ∧
      ∀ around request, Performance.ofAct (page around request) =
        ⟨{ body := bytesOf lss.flatten, closed := true }, none⟩ := by
  obtain ⟨d, hd⟩ : ∃ d, depth (moduleTree lss) = d + 6 := ⟨_, rfl⟩
  have hprogram : program ((moduleLines lss).flatMap Code.Line.text) = .ok (moduleTree lss) := by
    rw [program, parse_module, if_pos h]
    exact if_pos (isPlaced_moduleTree lss)
  refine ⟨page (depth (moduleTree lss)) (moduleBindings lss) (entryThing lss), ?_, ?_⟩
  · simp only [load, hprogram, bindings_moduleTree, bind, Except.bind]
    rfl
  · rw [hd]
    refine ofAct_page fun visit directory => ?_
    obtain ⟨after, hcall, hstage⟩ := call_entryThing (d := d) lss visit
      (w := { scope := { bound := moduleBindings lss }, directory }) rfl
    exact ⟨_, after, hcall, hstage⟩

/-- A module with an integer that has too many digits does not compile. -/
theorem load_of_not_fits {lss : List (List Code.Scalar)} (h : fits lss = false) :
    load ((moduleLines lss).flatMap Code.Line.text) = .error .notCompiling := by
  have hprogram : program ((moduleLines lss).flatMap Code.Line.text) = .error .notCompiling := by
    rw [program, parse_module, h]
    rfl
  simp only [load, hprogram, bind, Except.bind]

end Module

end ServerPages
