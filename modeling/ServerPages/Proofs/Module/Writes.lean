import ServerPages.Proofs.Module.Frame

/-!
# Modules that write scalars

A module whose body does nothing but write scalars, on one line after the other, is read and parsed
as the frame around these writes; it is no program if it holds an integer with too many digits
(`parse_module`).
-/

namespace ServerPages

namespace Frame

open Code Code.Expression

/-- The trees of lines that write scalars, from some line on. -/
def writeTrees : Nat → List (List Scalar) → List Tree
  | _, [] => []
  | line, ls :: lss => writeTree ls line :: writeTrees (line + 1) lss

variable {pattern : PatternGoal → Parser Tree} {n m : Nat}

/-- The rules by which the statements of the guarded block are parsed. -/
abbrev innerRules (pattern : PatternGoal → Parser Tree) (n m : Nat) : Statement.Rules :=
  ⟨Expression.parse (n + 40), pattern,
    Statement.parse (Expression.parse (n + 40)) pattern (m + 10)⟩

/-- Whether a program may hold all scalars on some lines. -/
def fits (lss : List (List Scalar)) : Bool := lss.all fun ls => ls.all Scalar.fits

/-- Lines that write scalars are read, and each is parsed as a statement up to the first that is
refused. -/
theorem exists_writes (pattern : PatternGoal → Parser Code.Tree) (n m : Nat)
    (lss : List (List Scalar)) (line : Nat) (outer : List (Nat × Nat)) :
    ∃ ts, readLines line ((8, 8) :: outer) (lss.map Line.write) = some (ts, (8, 8) :: outer) ∧
      ∀ (done : List Tree) {u : Token} (us : List Token), u.kind = .dedent →
        Parser.Loops (Statement.statementStep (innerRules pattern n m)) done (ts ++ u :: us)
          (Parser.provided (fits lss) (done ++ writeTrees line lss) (u :: us)) := by
  induction lss generalizing line with
  | nil =>
    refine ⟨[], rfl, fun done u us hu => ?_⟩
    rw [writeTrees, List.append_nil]
    exact Statement.loops_dedent hu
  | cons ls lss ih =>
    obtain ⟨ts, hread, hloops⟩ := ih (line + 1)
    obtain ⟨column, hline⟩ := read_write ls line outer
    refine ⟨writeTokens ls line ++ [⟨.newline, ['\n'], line, column⟩] ++ ts, ?_, ?_⟩
    · rw [List.map_cons, readLines, hline]
      simp [hread]
    · intro done u us hu
      have hparse : Statement.parse (Expression.parse (n + 40)) pattern (m + 10) .statement
          (writeTokens ls line ++ ⟨.newline, ['\n'], line, column⟩ :: (ts ++ u :: us)) =
            Parser.provided (ls.all Scalar.fits) [writeTree ls line] (ts ++ u :: us) :=
        parse_write ls (n + 8) (m + 9) line column (ts ++ u :: us)
      have htokens : writeTokens ls line ++ [⟨.newline, ['\n'], line, column⟩] ++ ts ++ u :: us =
          ⟨.name, "gosp".toList, line, 8⟩ :: (placed line 12 (writePieces ls) ++
            ⟨.newline, ['\n'], line, column⟩ :: (ts ++ u :: us)) := by
        simp [writeTokens, placed]
      have hfits : fits (ls :: lss) = (ls.all Scalar.fits && fits lss) := rfl
      rw [htokens, hfits]
      refine Statement.loops_statement (by simp) hparse ?_ ?_
      · intro _
        simp
        omega
      · have hrest := hloops (done ++ [writeTree ls line]) us hu
        rwa [List.append_assoc] at hrest

/-! ### The guard -/

/-- The tree of the guard around statements; the handler stands on lines from some number on. -/
def tryTree (line : Nat) (body : List Tree) : Tree :=
  .node (.tryBlock body.length 1 0) 26 (body ++ [exceptTree line] ++ [closeTree line])

section

variable {u : Token} {rest : List Token}

set_option maxRecDepth 10000 in
private theorem handler_except (line : Nat) :
    Statement.handler (innerRules pattern n m) false (exceptTokens line ++ u :: rest) =
      .ok (exceptTree line, u :: rest) := by
  rfl

set_option maxRecDepth 10000 in
private theorem suite_finally (line next margin : Nat) :
    Statement.suite (innerRules pattern n m)
      ((finallyTokens line).tail ++ dedent next margin :: u :: rest) =
        .ok ([closeTree line], u :: rest) := by
  rfl

open Code.Parser in
private theorem parse_try {ts : List Token} {right : Bool} {vs : List Tree} {line next margin : Nat}
    (h : Loops (Statement.statementStep (innerRules pattern n m)) [] ts (provided right vs
      (dedent line 4 :: (exceptTokens line ++ (finallyTokens line ++
        dedent next margin :: u :: rest))))) :
    Statement.parse (Expression.parse (n + 40)) pattern (m + 12) .statement (tryTokens ++ ts) =
      provided right [tryTree line vs] (u :: rest) := by
  have hbody : Statement.suite (innerRules pattern n (m + 1)) (tryTokens.tail ++ ts) =
      provided right vs
        (exceptTokens line ++ (finallyTokens line ++ dedent next margin :: u :: rest)) :=
    (bind_ok rfl).trans (Statement.block_of_loops rfl rfl rfl h)
  have hsplit : finallyTokens line ++ dedent next margin :: u :: rest =
      ⟨.name, "finally".toList, line + 2, 4⟩ ::
        ((finallyTokens line).tail ++ dedent next margin :: u :: rest) := rfl
  -- one handler, behind which stands `finally`
  have hhandlers : Loops (fun hs => do
      if ← atWord "except" then
        return some (hs ++ [← Statement.handler (innerRules pattern n (m + 1)) false])
      else return none) [] (exceptTokens line ++ (finallyTokens line ++
        dedent next margin :: u :: rest)) (.ok ([exceptTree line],
      finallyTokens line ++ dedent next margin :: u :: rest)) := by
    rw [hsplit]
    refine .more (b := [exceptTree line]) ((bind_ok (a := true) rfl).trans
      ((bind_ok (handler_except line)).trans rfl)) ?_ (.stop ((bind_ok (a := false) rfl).trans rfl))
    simp only [exceptTokens, List.length_append, List.length_cons]
    omega
  have htry : Statement.tryBlock (innerRules pattern n (m + 1)) 26 (tryTokens.tail ++ ts) =
      provided right (tryTree line vs) (u :: rest) := by
    refine bind_provided hbody
      ((bind_ok (a := false) rfl).trans ((bind_ok hhandlers.loop).trans ?_))
    have hword : takeIf (atWord "finally") (⟨.name, "finally".toList, line + 2, 4⟩ ::
        ((finallyTokens line).tail ++ dedent next margin :: u :: rest)) =
          .ok (true, (finallyTokens line).tail ++ dedent next margin :: u :: rest) := rfl
    have helse : Statement.otherwise (innerRules pattern n (m + 1))
        (⟨.name, "finally".toList, line + 2, 4⟩ ::
          ((finallyTokens line).tail ++ dedent next margin :: u :: rest)) =
        .ok ([], ⟨.name, "finally".toList, line + 2, 4⟩ ::
          ((finallyTokens line).tail ++ dedent next margin :: u :: rest)) := rfl
    rw [hsplit, if_neg (List.cons_ne_nil _ _)]
    have hsuite : Statement.suite (innerRules pattern n (m + 1))
        ((finallyTokens line).tail ++ dedent next margin :: u :: rest) =
          .ok ([closeTree line], u :: rest) := suite_finally line next margin
    refine (bind_ok helse).trans ((bind_ok (a := [closeTree line]) (t := u :: rest) ?_).trans ?_)
    · refine (bind_ok hword).trans ?_
      rw [if_pos rfl]
      exact hsuite
    rw [tryTree, List.append_nil]
    rfl
  -- the words that begin other compound statements do not stand here
  have hno : ∀ w ∈ ["if", "while", "for"], takeIf (atWord w) (tryTokens ++ ts) =
      .ok (false, tryTokens ++ ts) := by
    intro w hw
    simp only [List.mem_cons, List.not_mem_nil, or_false] at hw
    obtain rfl | rfl | rfl := hw <;> rfl
  have hyes : takeIf (atWord "try") (tryTokens ++ ts) = .ok (true, tryTokens.tail ++ ts) := rfl
  refine (bind_ok (a := 26) rfl).trans ?_
  iterate 3 refine (bind_ok (hno _ (by decide))).trans ?_
  exact (bind_ok hyes).trans (bind_provided htry rfl)

/-! ### The entry point -/

/-- The tree of the function that writes the page; what its guard ends with stands on lines from
some number on. -/
def entryTree (line : Nat) (body : List Code.Tree) : Code.Tree :=
  function 7 "gosp_generate_page".toList
    (parameters 7 ["gosp_req".toList, "gosp_out".toList, "gosp_meta".toList] [])
    [purposeTree, statusTree, mimeTree, fieldTree, openTree, tryTree line body]

/-- The tokens of the function before the statements in its guard. -/
def entryBody (ts : List Token) : List Token :=
  purposeTokens ++ (statusTokens ++ (mimeTokens ++ (fieldTokens ++ (openTokens ++
    (tryTokens ++ ts)))))

open Code.Parser in
private theorem parse_entry {ts : List Token} {right : Bool} {vs : List Code.Tree} {line next : Nat}
    (h : Loops (Statement.statementStep (innerRules pattern n m)) [] ts (provided right vs
      (dedent line 4 :: (exceptTokens line ++ (finallyTokens line ++
        dedent next 0 :: dedent next 0 :: rest))))) :
    Statement.parse (Expression.parse (n + 40)) pattern (m + 14) .statement
      (entryTokens ++ entryBody ts) = provided right [entryTree line vs] rest := by
  -- the statements of the body in turn, the last of which is the `try`
  have hbody : Loops (Statement.statementStep (innerRules pattern n (m + 2))) [] (entryBody ts)
      (provided (right && true)
        [purposeTree, statusTree, mimeTree, fieldTree, openTree, tryTree line vs]
        (dedent next 0 :: rest)) := by
    refine Statement.loops_append ⟨_, _, rfl, by decide⟩ parse_purpose ?_
    refine Statement.loops_append ⟨_, _, rfl, by decide⟩ parse_status ?_
    refine Statement.loops_append ⟨_, _, rfl, by decide⟩ parse_mime ?_
    refine Statement.loops_append ⟨_, _, rfl, by decide⟩ parse_field ?_
    refine Statement.loops_append ⟨_, _, rfl, by decide⟩ parse_open ?_
    have hlt : right = true →
        (dedent next 0 :: rest).length < (tryTokens.tail ++ ts).length + 1 := by
      rintro rfl
      have hle := h.length_le _ _ rfl
      simp only [List.length_append, List.length_cons] at hle ⊢
      omega
    have hkind : (⟨.name, "try".toList, 26, 4⟩ : Token).kind ≠ .dedent := by decide
    exact Statement.loops_statement hkind (parse_try h) hlt (Statement.loops_dedent rfl)
  rw [Bool.and_true] at hbody
  have hsuite : Statement.suite (innerRules pattern n (m + 3))
      (entryTokens.drop 9 ++ entryBody ts) =
        provided right [purposeTree, statusTree, mimeTree, fieldTree, openTree, tryTree line vs]
          rest :=
    (bind_ok rfl).trans (Statement.block_of_loops rfl rfl rfl hbody)
  -- the header of the function, token by token
  have hname : name (entryTokens.tail ++ entryBody ts) =
      .ok ("gosp_generate_page".toList, entryTokens.drop 2 ++ entryBody ts) := rfl
  have hopened : operator "(" (entryTokens.drop 2 ++ entryBody ts) =
      .ok ((), entryTokens.drop 3 ++ entryBody ts) := rfl
  have hparameters : Expression.parameters (Expression.parse (n + 40)) true ")"
      (entryTokens.drop 3 ++ entryBody ts) =
        .ok (parameters 7 ["gosp_req".toList, "gosp_out".toList, "gosp_meta".toList] [],
          entryTokens.drop 8 ++ entryBody ts) := rfl
  have hclosed : operator ")" (entryTokens.drop 8 ++ entryBody ts) =
      .ok ((), entryTokens.drop 9 ++ entryBody ts) := rfl
  have harrow : takeIf (atOperator "->") (entryTokens.drop 9 ++ entryBody ts) =
      .ok (false, entryTokens.drop 9 ++ entryBody ts) := rfl
  have hfunction : Statement.function (innerRules pattern n (m + 3)) 7 []
      (entryTokens.tail ++ entryBody ts) = provided right (entryTree line vs) rest :=
    (bind_ok hname).trans ((bind_ok hopened).trans ((bind_ok hparameters).trans
      ((bind_ok hclosed).trans ((bind_ok ((bind_ok harrow).trans rfl)).trans
        (bind_provided hsuite rfl)))))
  -- the words that begin other compound statements do not stand here
  have hno : ∀ w ∈ ["if", "while", "for", "try", "with"], takeIf (atWord w)
      (entryTokens ++ entryBody ts) = .ok (false, entryTokens ++ entryBody ts) := by
    intro w hw
    simp only [List.mem_cons, List.not_mem_nil, or_false] at hw
    obtain rfl | rfl | rfl | rfl | rfl := hw <;> rfl
  have hyes : takeIf (atWord "def") (entryTokens ++ entryBody ts) =
      .ok (true, entryTokens.tail ++ entryBody ts) := rfl
  refine (bind_ok (a := 7) rfl).trans ?_
  iterate 5 refine (bind_ok (hno _ (by decide))).trans ?_
  exact (bind_ok hyes).trans (bind_provided hfunction rfl)

end

/-! ### The module -/

/-- The lines of a module that writes scalars. -/
def moduleLines (lss : List (List Scalar)) : List Line := begins ++ (lss.map Line.write ++ ends)

/-- The tree of a module that writes scalars. -/
def moduleTree (lss : List (List Scalar)) : Code.Tree :=
  .node .module 1 [importTree, entryTree (28 + lss.length) (passTree :: writeTrees 28 lss)]

/-- The tokens of such a module but for the ends of its blocks, where those of the writes are
known. -/
def moduleTokens (lss : List (List Scalar)) (ts : List Token) : List Token :=
  importTokens ++ entryTokens ++ purposeTokens ++ statusTokens ++ mimeTokens ++ fieldTokens ++
    openTokens ++ tryTokens ++ passTokens ++ (ts ++ (dedent (28 + lss.length) 4 ::
      exceptTokens (28 + lss.length) ++ finallyTokens (28 + lss.length)))

private theorem read_moduleLines {lss : List (List Scalar)} {ts : List Token}
    (h : readLines 28 [(8, 8), (4, 4)] (lss.map Line.write) = some (ts, [(8, 8), (4, 4)])) :
    readLines 1 [] (moduleLines lss) = some (moduleTokens lss ts, [(8, 8), (4, 4)]) := by
  refine readLines_append read_begins (readLines_append h ?_)
  rw [List.length_map]
  exact read_ends (28 + lss.length)

/-- The tokens behind the statements of such a module, the ends of its blocks among them. -/
def endTokens (line next : Nat) : List Token :=
  dedent line 4 :: (exceptTokens line ++ (finallyTokens line ++ [dedent next 0, dedent next 0]))

/-- The patterns of a program whose length calls for some bound. -/
abbrev patternParser (b : Nat) : PatternGoal → Parser Code.Tree :=
  Pattern.parse (Expression.parse (b + 100)) (b + 100)

/-- The rules by which the statements in the guard of such a program are parsed. -/
abbrev guardRules (b : Nat) : Statement.Rules := innerRules (patternParser b) (b + 60) (b + 86)

/-- The statements of such a program. -/
abbrev programParser (b : Nat) : Parser (List Code.Tree) :=
  Statement.parse (Expression.parse (b + 100)) (patternParser b) (b + 100) .statement

open Code.Parser in
/-- Whatever is parsed in the guard, the module is parsed around it. -/
theorem run_statements {s : Text} {b line next : Nat} {ts : List Token} {right : Bool}
    {vs : List Code.Tree} (hb : Program.bound s = b + 100)
    (h : Loops (Statement.statementStep (guardRules b)) [] ts
      (provided right vs (endTokens line next))) :
    (Program.statements s).run (importTokens ++ (entryTokens ++ entryBody ts)) =
      provided right [importTree, entryTree line vs] [] := by
  have himport : programParser b (importTokens ++ (entryTokens ++ entryBody ts)) =
      .ok ([importTree], entryTokens ++ entryBody ts) := parse_import
  have hentry : programParser b (entryTokens ++ entryBody ts) =
      provided right [entryTree line vs] [] := parse_entry h
  have hloop : Loops (fun done => do
      if ← atEnd then return none else return some (done ++ (← programParser b)))
      [] (importTokens ++ (entryTokens ++ entryBody ts))
      (provided right [importTree, entryTree line vs] []) := by
    refine .more (b := [importTree])
      ((bind_ok (a := false) rfl).trans ((bind_ok himport).trans rfl)) ?_ ?_
    · simp only [importTokens, tokens, importLine, codeLine, List.length_append, List.length_cons]
      omega
    · cases right with
      | false => exact .refuse ((bind_ok (a := false) rfl).trans (bind_error hentry))
      | true =>
        refine .more ((bind_ok (a := false) rfl).trans ((bind_ok hentry).trans rfl)) ?_ (.stop rfl)
        simp [entryTokens]
  rw [Program.statements, hb]
  exact hloop.loop

open Code.Parser in
/-- **Modules that write scalars are programs**, unless they hold an integer with too many
digits. -/
theorem parse_module (lss : List (List Scalar)) :
    Program.parse ((moduleLines lss).flatMap Line.text) =
      if fits lss then .ok (moduleTree lss) else .error .syntaxFault := by
  obtain ⟨b, hb⟩ : ∃ b, Program.bound ((moduleLines lss).flatMap Line.text) = b + 100 := ⟨_, rfl⟩
  obtain ⟨ts, hread, hwrites⟩ :=
    exists_writes (patternParser b) (b + 60) (b + 86) lss 28 [(4, 4)]
  have hguard : ∀ next, Loops (Statement.statementStep (guardRules b)) []
      (passTokens ++ (ts ++ endTokens (28 + lss.length) next))
      (provided (fits lss) (passTree :: writeTrees 28 lss) (endTokens (28 + lss.length) next)) := by
    intro next
    refine Statement.loops_append ⟨_, _, rfl, by decide⟩ ?_ (hwrites [passTree] _ rfl)
    cases ts <;> exact parse_pass
  have hlines := read_moduleLines hread
  have hkept := kept_programTokens hlines
  have hnull : '\x00' ∉ (moduleLines lss).flatMap Line.text := fun hc => by
    obtain hc | hc := isInLine_of_readLines hlines hc <;> exact absurd hc (by decide)
  have htokens : ∀ next, moduleTokens lss ts ++ [dedent next 0, dedent next 0] = importTokens ++
      (entryTokens ++ entryBody (passTokens ++ (ts ++ endTokens (28 + lss.length) next))) := by
    intro next
    simp [moduleTokens, entryBody, endTokens]
  have hfilter : (programTokens ((moduleLines lss).flatMap Line.text)).1.filter
      (fun t => t.kind ≠ .comment ∧ t.kind ≠ .blankLine) = importTokens ++ (entryTokens ++
        entryBody (passTokens ++ (ts ++
          endTokens (28 + lss.length) (1 + (moduleLines lss).length)))) :=
    (congrArg Prod.fst hkept).trans (htokens _)
  have hfault : (programTokens ((moduleLines lss).flatMap Line.text)).2 = none :=
    congrArg Prod.snd hkept
  rw [Program.parse, if_neg hnull]
  simp only [hfilter, hfault, run_statements hb (hguard _)]
  cases fits lss <;> rfl

end Frame

end ServerPages
