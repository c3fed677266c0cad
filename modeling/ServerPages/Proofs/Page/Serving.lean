import ServerPages.Page.Loading
import ServerPages.Proofs.Dispatch.Outcome
import ServerPages.Proofs.Execution.Writing
import ServerPages.Proofs.Module.Hoisting
import ServerPages.Proofs.Page.Tiling
import ServerPages.Proofs.Text.Utf8

/-!
# Pages of literal text and scalars

A page of literal text in which directives stand only for integers and quoted strings is compiled to
a module that writes scalars. It is served as it reads: the literal text as it stands, and in the
place of each directive its value and the white space behind it (`Page.serves_of_writes`). Only an
integer with too many digits is in the way: no page that holds one is loaded
(`Page.notCompiling_of_hasLongInteger`).
-/

namespace ServerPages

open Code

/-! ### What a node writes -/

namespace Node

/-- What literal text writes, and what an expression writes that is an integer or a string written
out. -/
inductive Writes (n : Node) : Text → Prop
  | literal (hkind : n.kind = .text) : n.Writes n.text
  | integer {negative : Bool} {k : Nat} (hkind : n.kind = .expr)
      (hcode : Text.trim n.text = signOf negative ++ Decimal.ofNat k) :
      n.Writes (Decimal.ofInt (Decimal.signed negative k) ++ n.trailing)
  | string {q : Char} {s : Text} (hkind : n.kind = .expr) (hq : q = '"' ∨ q = '\'')
      (hcode : Text.trim n.text = q :: s ++ [q])
      (hs : ∀ c ∈ s, Text.isPrintable c = true ∧ c ≠ '\\' ∧ c ≠ '#' ∧ c ≠ q) :
      n.Writes (s ++ n.trailing)

/-- The code of an expression is an integer with more digits than a program may hold. -/
def HasLongInteger (n : Node) : Prop :=
  n.kind = .expr ∧ (∀ c ∈ Text.trim n.text, isDigit c = true ∨ c = '-') ∧
    Decimal.digitLimit < ((Text.trim n.text).filter isDigit).length

private theorem hasLongInteger_iff {n : Node} {negative : Bool} {k : Nat} (hkind : n.kind = .expr)
    (hcode : Text.trim n.text = signOf negative ++ Decimal.ofNat k) :
    n.HasLongInteger ↔ Decimal.digitLimit < (Decimal.ofNat k).length := by
  have hdigits := isDigit_of_mem_ofNat (n := k)
  have hsign : ∀ c ∈ signOf negative, c = '-' := by
    cases negative <;> simp [signOf]
  have hfilter : (signOf negative ++ Decimal.ofNat k).filter isDigit = Decimal.ofNat k := by
    rw [List.filter_append, List.filter_eq_self.2 hdigits]
    cases negative <;> rfl
  have hall : ∀ c ∈ signOf negative ++ Decimal.ofNat k, isDigit c = true ∨ c = '-' := fun c hc =>
    (List.mem_append.1 hc).elim (.inr ∘ hsign c) (.inl ∘ hdigits c)
  rw [HasLongInteger, hcode, hfilter]
  exact ⟨fun h => h.2.2, fun h => ⟨hkind, hall, h⟩⟩

end Node

namespace Layout

open Execution

variable {l : Layout} {n : Node} {s : Text}

/-- The lines of calls that write scalars. -/
def writeLines (lss : List (List Scalar)) : List Text := lss.map fun ls => (Line.write ls).text

private theorem lineAt_write (a : Scalar) (ls : List Scalar) :
    lineAt 0 (writeCall ++ a.spelling ++ ls.flatMap (fun b => ", ".toList ++ b.spelling) ++ [')']) =
      (Line.write (a :: ls)).text := by
  have hblank : ∀ t, Text.isAllBlank (writeCall ++ t) = false := fun t =>
    List.all_eq_false.2 ⟨'g', List.mem_append_left t (by decide), by decide⟩
  have hcall : writeCall = "gosp.fprint(gosp_out".toList ++ ", ".toList := rfl
  have hclose : ")\n".toList = [')'] ++ ['\n'] := rfl
  rw [lineAt, List.append_assoc, List.append_assoc, hblank, Line.text_write, hcall, hclose,
    List.flatMap_cons]
  simp only [List.append_assoc]
  rfl

/-- A layout with calls that write scalars at the end of its body. -/
def adding (l : Layout) (lss : List (List Scalar)) : Layout :=
  { l with body := l.body ++ writeLines lss }

private theorem emit_write (hl : l.column = 0) (a : Scalar) (ls : List Scalar) :
    l.emit (writeCall ++ a.spelling ++ ls.flatMap (fun b => ", ".toList ++ b.spelling) ++ [')']) =
      l.adding [a :: ls] := by
  simp only [emit, adding, hl, lineAt_write, writeLines, List.map_cons, List.map_nil]

private theorem placeText_eq (hl : l.column = 0) (s : Text) :
    l.placeText s = l.adding (if s = [] then [] else [[Scalar.quoted s]]) := by
  rw [placeText]
  cases s with
  | nil => simp [adding, writeLines]
  | cons c s =>
    have h := emit_write hl (Scalar.quoted (c :: s)) []
    rw [List.flatMap_nil, List.append_nil] at h
    exact h

/-- An expression that is a scalar written out becomes a call that writes it, and the white space
behind it. -/
theorem placeExpr_eq (hl : l.column = 0) {a : Scalar} (hcode : Text.trim n.text = a.spelling)
    (hline : ∀ c ∈ a.spelling, c ≠ '\n' ∧ c ≠ '#') :
    l.placeExpr n = l.adding [[a, Scalar.quoted n.trailing]] := by
  have hplain : ¬('\n' ∈ a.spelling ∨ '#' ∈ a.spelling) := by
    rintro (h | h)
    · exact (hline _ h).1 rfl
    · exact (hline _ h).2 rfl
  have h := emit_write hl a [Scalar.quoted n.trailing]
  rw [placeExpr]
  simp only [hcode, if_neg hplain]
  rw [← h, List.flatMap_cons, List.flatMap_nil, List.append_nil, ← List.append_assoc]
  rfl

/-- A node that writes some text is laid out as calls that write it, which a program may hold unless
the node has a long integer. -/
theorem exists_place (h : n.Writes s) : ∃ lss, bytesOf lss.flatten = Utf8.encode s ∧
    (Frame.fits lss = true ↔ ¬ n.HasLongInteger) ∧
    ∀ l : Layout, l.column = 0 → l.place n = .ok (l.adding lss) := by
  cases h with
  | literal hkind =>
    refine ⟨if n.text = [] then [] else [[Scalar.quoted n.text]], ?_, ?_, fun l hl => ?_⟩
    · split
      · next h => rw [h]; rfl
      · simp [bytesOf, Scalar.quoted, Scalar.value, Value.written, Value.shown]
    · have hshort : ¬ n.HasLongInteger := fun h => absurd (hkind.symm.trans h.1) (by decide)
      refine iff_of_true ?_ hshort
      split <;> rfl
    · rw [place, hkind]
      exact congrArg Except.ok (placeText_eq hl n.text)
  | @integer negative k hkind hcode =>
    refine ⟨[[.integer negative k, Scalar.quoted n.trailing]], ?_, ?_, fun l hl => ?_⟩
    · simp [bytesOf, Scalar.quoted, Scalar.value, Value.written, Value.shown, Value.quoted,
        Utf8.encode_append]
    · rw [Node.hasLongInteger_iff hkind hcode, Nat.not_lt]
      simp [Frame.fits, Scalar.fits, Scalar.quoted]
    · rw [place, hkind]
      refine congrArg Except.ok (placeExpr_eq hl hcode fun c hc => ?_)
      obtain hc | hc := List.mem_append.1 hc
      · cases negative with
        | false => cases hc
        | true => rw [List.mem_singleton.1 hc]; decide
      · have hdigit := isDigit_of_mem_ofNat c hc
        constructor <;> rintro rfl <;> cases hdigit
  | @string q s hkind hq hcode hs =>
    refine ⟨[[.text hq (Spells.plain fun c hc => ⟨(hs c hc).2.2.2, (hs c hc).2.1, (hs c hc).1⟩),
      Scalar.quoted n.trailing]], ?_, ?_, fun l hl => ?_⟩
    · simp [bytesOf, Scalar.quoted, Scalar.value, Value.written, Value.shown, Utf8.encode_append]
    · have hshort : ¬ n.HasLongInteger := by
        rintro ⟨-, hall, -⟩
        have hmark := hall q (by rw [hcode]; exact List.mem_cons_self)
        obtain rfl | rfl := hq <;> obtain hmark | hmark := hmark <;> cases hmark
      exact iff_of_true rfl hshort
    · rw [place, hkind]
      refine congrArg Except.ok (placeExpr_eq hl hcode fun c hc => ?_)
      have hmark : q ≠ '\n' ∧ q ≠ '#' := by obtain rfl | rfl := hq <;> decide
      simp only [Scalar.spelling, List.cons_append, List.mem_cons, List.mem_append,
        List.not_mem_nil, or_false] at hc
      obtain rfl | hc | rfl := hc
      · exact hmark
      · exact ⟨ne_newline_of_isInLine (isInLine_of_isPrintable (hs c hc).1), (hs c hc).2.2.1⟩
      · exact hmark

private theorem exists_foldlM_place {nodes : List Node} {written : List Text}
    (h : List.Forall₂ Node.Writes nodes written) :
    ∃ lss, bytesOf lss.flatten = Utf8.encode written.flatten ∧
      (Frame.fits lss = true ↔ ∀ n ∈ nodes, ¬ n.HasLongInteger) ∧
      ∀ l : Layout, l.column = 0 → nodes.foldlM place l = .ok (l.adding lss) := by
  induction h with
  | nil => exact ⟨[], rfl, by simp [Frame.fits], fun l _ => by simp [adding, writeLines]; rfl⟩
  | @cons n s nodes written hn _ ih =>
    obtain ⟨lss, hbytes, hfits, hplace⟩ := exists_place hn
    obtain ⟨rest, hrest, hothers, hfold⟩ := ih
    refine ⟨lss ++ rest, ?_, ?_, fun l hl => ?_⟩
    · rw [List.flatten_cons, Utf8.encode_append, ← hbytes, ← hrest, List.flatten_append]
      exact List.flatMap_append
    · have hall : Frame.fits (lss ++ rest) = (Frame.fits lss && Frame.fits rest) :=
        List.all_append
      rw [hall, Bool.and_eq_true, hfits, hothers, List.forall_mem_cons]
    · rw [List.foldlM_cons, hplace l hl]
      refine (hfold (l.adding lss) hl).trans ?_
      simp [adding, writeLines]

/-- The layout of nodes that write some texts. -/
theorem exists_ofNodes {nodes : List Node} {written : List Text}
    (h : List.Forall₂ Node.Writes nodes written) :
    ∃ lss, bytesOf lss.flatten = Utf8.encode written.flatten ∧
      (Frame.fits lss = true ↔ ∀ n ∈ nodes, ¬ n.HasLongInteger) ∧
      ofNodes nodes = .ok { body := writeLines lss } := by
  obtain ⟨lss, hbytes, hfits, hplace⟩ := exists_foldlM_place h
  exact ⟨lss, hbytes, hfits, hplace {} rfl⟩

/-- A layout of such calls is assembled into the module that writes the scalars. -/
theorem assemble_writeLines (lss : List (List Scalar)) :
    Module.assemble { body := writeLines lss } = (Frame.moduleLines lss).flatMap Line.text := by
  rw [Module.assemble, Frame.moduleLines, List.flatMap_append, List.flatMap_append,
    Frame.text_begins, Frame.text_ends, List.flatMap_map]
  simp [writeLines, List.flatMap]

end Layout

/-! ### Serving -/

namespace Page

variable {e : Inclusion.Setting} {source : Text} {st : Inclusion.State}

/-- A page serves some text: it is compiled to a module, the module loads, and whoever asks for the
page, in whatever form of header, is answered with the status of success and that text; only the
directory of the requested page has to be there. -/
def Serves (e : Inclusion.Setting) (source body : Text) : Prop :=
  ∃ code page, (compile e source).result = .ok code ∧ (∀ origin, ofText origin code = .ok page) ∧
    ∀ (d : Dispatcher) around request, d.page = page →
      (∀ dir, request.bind (·.baseDir? around.cwd.path) = some dir →
        around.tree.isDirectory around.cwd dir = true) →
      ∃ notes cwd, d.dispatch around request =
        .ok (⟨Letter.ofText "200".toList,
          Utf8.encode (Header.text d.format [Dispatcher.opening request]) ++ Utf8.encode body, notes,
          none⟩, cwd)

/-- A performance that writes a body, sends nothing and ends well is answered with that body. -/
theorem response_of_written (format : Format) (request : Option Request) (b : Bytes) :
    ∃ notes, Dispatcher.response format request ⟨{ body := b, closed := true }, none⟩ =
      ⟨Letter.ofText "200".toList,
        Utf8.encode (Header.text format [Dispatcher.opening request]) ++ b, notes, none⟩ :=
  ⟨_, Dispatcher.response_of_encode? (Header.encode?_signals format [Dispatcher.opening request])⟩

/-- The module that nodes which write are compiled to. -/
theorem exists_compile {nodes : List Node} {written : List Text} (htop : 0 ≤ e.policy.maxTop)
    (hparse : (parse e source).1 = .ok nodes) (hwrites : List.Forall₂ Node.Writes nodes written) :
    ∃ lss, Execution.bytesOf lss.flatten = Utf8.encode written.flatten ∧
      (Frame.fits lss = true ↔ ∀ n ∈ nodes, ¬ n.HasLongInteger) ∧
      (compile e source).result = .ok ((Frame.moduleLines lss).flatMap Line.text) := by
  obtain ⟨lss, hbytes, hfits, hnodes⟩ := Layout.exists_ofNodes hwrites
  refine ⟨lss, hbytes, hfits, ?_⟩
  rw [← Layout.assemble_writeLines]
  exact (compile_of_parse hparse hnodes).trans (if_neg (Int.not_lt.2 htop))

/-- A page of literal text and short scalars is served as it reads. -/
theorem serves_of_short {nodes : List Node} {written : List Text} (htop : 0 ≤ e.policy.maxTop)
    (hparse : (parse e source).1 = .ok nodes) (hwrites : List.Forall₂ Node.Writes nodes written)
    (hshort : ∀ n ∈ nodes, ¬ n.HasLongInteger) : Serves e source written.flatten := by
  obtain ⟨lss, hbytes, hfits, hcompile⟩ := exists_compile htop hparse hwrites
  obtain ⟨page, hload, hperform⟩ := Module.load_moduleLines (hfits.2 hshort)
  refine ⟨_, page, hcompile, fun origin => ?_, ?_⟩
  · rw [ofText, hload]
    rfl
  · rintro d around request rfl hdir
    obtain ⟨cwd, hcwd⟩ := Dispatcher.exists_directory_eq (d := d) hdir
    obtain ⟨notes, hresponse⟩ :=
      response_of_written d.format request (Utf8.encode written.flatten)
    refine ⟨notes, cwd, ?_⟩
    rw [Dispatcher.dispatch, hcwd]
    simp only [Except.map, hperform, hresponse, hbytes]

/-- A page with a long integer is compiled to a module that is no program. -/
theorem notCompiling_of_hasLongInteger {nodes : List Node} {written : List Text}
    (htop : 0 ≤ e.policy.maxTop) (hparse : (parse e source).1 = .ok nodes)
    (hwrites : List.Forall₂ Node.Writes nodes written) (hlong : ∃ n ∈ nodes, n.HasLongInteger) :
    ∃ code, (compile e source).result = .ok code ∧
      ∀ origin, ofText origin code = .error (.notCompiling origin) := by
  obtain ⟨lss, -, hfits, hcompile⟩ := exists_compile htop hparse hwrites
  have hnot : Frame.fits lss = false := by
    rw [Bool.eq_false_iff]
    intro h
    obtain ⟨n, hn, hlong⟩ := hlong
    exact hfits.1 h n hn hlong
  refine ⟨_, hcompile, fun origin => ?_⟩
  rw [ofText, Module.load_of_not_fits hnot]
  rfl

/-! ### Long integers -/

private theorem isBlank_of_isDigit {c : Char} (h : isDigit c = true) : Text.isBlank c = false := by
  simp only [isDigit, Bool.and_eq_true, decide_eq_true_eq] at h
  have hlow : 48 ≤ c.toNat := h.1
  have hhigh : c.toNat ≤ 57 := h.2
  simp [Text.isBlank]
  omega

private theorem trim_ofNat (k : Nat) : Text.trim (Decimal.ofNat k) = Decimal.ofNat k := by
  have hdrop : ∀ s : Text, (∀ c ∈ s, isDigit c = true) → s.dropWhile Text.isBlank = s := by
    intro s hs
    cases s with
    | nil => rfl
    | cons c s =>
      rw [List.dropWhile_cons, isBlank_of_isDigit (hs c List.mem_cons_self)]
      rfl
  have hdigits := isDigit_of_mem_ofNat (n := k)
  have hreverse : ∀ c ∈ (Decimal.ofNat k).reverse, isDigit c = true :=
    fun c hc => hdigits c (List.mem_reverse.1 hc)
  rw [Text.trim, Text.trimLeft, hdrop _ hdigits, Text.trimRight, hdrop _ hreverse,
    List.reverse_reverse]

/-- The page that is nothing but a natural number. -/
def numberPage (k : Nat) : Text := Directive.source ⟨.expr, [' '], Decimal.ofNat k, []⟩

private theorem parse_numberPage (hstart : Inclusion.start e = .ok st) (k : Nat) :
    (parse e (numberPage k)).1 = .ok [⟨.expr, Decimal.ofNat k, [], [], 1⟩] := by
  have hdigits := isDigit_of_mem_ofNat (n := k)
  have hproper : Directive.IsProper ⟨.expr, [' '], Decimal.ofNat k, []⟩ := by
    refine ⟨by simp [Directive.codeKinds], List.cons_ne_nil _ _, ?_, fun h => ?_, fun c hc => ?_⟩
    · exact fun c hc => List.mem_singleton.1 hc ▸ rfl
    · have hmark : '?' ∈ Decimal.ofNat k := h.subset List.mem_cons_self
      cases hdigits _ hmark
    · exact isBlank_of_isDigit (hdigits c (List.mem_of_mem_head? hc))
  have hmatch : Directive.match? (numberPage k) = some (⟨.expr, [' '], Decimal.ofNat k, []⟩, []) :=
    Directive.match?_eq_some_iff.2
      ⟨(List.append_nil _).symm, hproper, [], by simp, .inr ⟨rfl, by simp⟩⟩
  have hscan := Region.scan_of_match hmatch
  rw [Region.scan] at hscan
  have habsent : Inclusion.Absent (numberPage k) := by
    refine Inclusion.absent_of_not_infix fun h => ?_
    have hpage : numberPage k = "<?go:expr ".toList ++ Decimal.ofNat k ++ "?>".toList :=
      List.append_nil _
    have hletter : 'i' ∈ Inclusion.opening := by decide
    have hmem := h.subset hletter
    rw [hpage] at hmem
    obtain hmem | hmem := List.mem_append.1 hmem
    · obtain hmem | hmem := List.mem_append.1 hmem
      · exact absurd hmem (by decide)
      · cases hdigits _ hmem
    · exact absurd hmem (by decide)
  rw [parse_of_expand hstart (by rw [Inclusion.expand_of_absent habsent]), Node.ofText, hscan]
  rfl

private theorem writes_ofNat (k : Nat) :
    Node.Writes ⟨.expr, Decimal.ofNat k, [], [], 1⟩ (Decimal.ofNat k) := by
  have hcode : Text.trim (Decimal.ofNat k) = signOf false ++ Decimal.ofNat k := trim_ofNat k
  have h : Node.Writes ⟨.expr, Decimal.ofNat k, [], [], 1⟩
      (Decimal.ofInt (Decimal.signed false k) ++ []) := .integer rfl hcode
  rwa [List.append_nil] at h

/-- A page of nothing but a natural number with too many digits is not served. -/
theorem not_serves_numberPage (htop : 0 ≤ e.policy.maxTop) (hstart : Inclusion.start e = .ok st)
    {k : Nat} (hk : 10 ^ Decimal.digitLimit ≤ k) (body : Text) :
    ¬ Serves e (numberPage k) body := by
  have hcode : Text.trim (Decimal.ofNat k) = signOf false ++ Decimal.ofNat k := trim_ofNat k
  have hlong : Node.HasLongInteger ⟨.expr, Decimal.ofNat k, [], [], 1⟩ := by
    rw [Node.hasLongInteger_iff rfl hcode, ← Nat.not_le, Decimal.ofNat,
      Nat.length_toDigits_le_iff (by decide) (by decide)]
    exact Nat.not_lt.2 hk
  obtain ⟨code, hcompile, hload⟩ := notCompiling_of_hasLongInteger htop (parse_numberPage hstart k)
    (.cons (writes_ofNat k) .nil) ⟨_, List.mem_singleton_self _, hlong⟩
  rintro ⟨code', page, hcompile', hload', -⟩
  obtain rfl : code = code' := Except.ok.inj (hcompile.symm.trans hcompile')
  cases (hload []).symm.trans (hload' [])

/-! ### Pages without directives -/

/-- A page in which no directive begins is one literal text. -/
theorem ofText_of_plain (h : ∀ t, t <:+ source → ¬ Directive.Begins t) : Node.ofText source =
    if source = [] then [] else [{ kind := .text, text := source }] := by
  rw [Node.ofText]
  split
  · next hempty => rw [hempty, Region.scan]; rfl
  · next hne =>
    have hscan : Region.scan (source ++ []) = .literal source :: Region.scan [] := by
      refine Region.scan_literal hne (fun before behind hsplit _ => ?_) fun t ts h => ?_
      · rw [List.append_nil]
        exact h behind ⟨before, hsplit.symm⟩
      · rw [Region.scan] at h
        cases h
    rw [List.append_nil, Region.scan] at hscan
    rw [hscan]
    rfl

/-- **A page of literal text and scalars is served as it reads**: the literal text as it stands, and
in the place of each directive its value and the white space behind it. So a page in which no
directive begins is served unchanged. -/
theorem serves_of_writes (htop : 0 ≤ e.policy.maxTop) :
    (∀ nodes written, (parse e source).1 = .ok nodes → List.Forall₂ Node.Writes nodes written →
      (∀ n ∈ nodes, ¬ n.HasLongInteger) → Serves e source written.flatten) ∧
    (∀ st, Inclusion.start e = .ok st →
      (∀ t, t <:+ source → ¬ Directive.Begins t ∧ ¬ Inclusion.Begins t) →
      Serves e source source) := by
  refine ⟨fun nodes written => serves_of_short htop, fun st hstart hplain => ?_⟩
  have htext : (Inclusion.expand e source st).1 = .ok source := by
    rw [Inclusion.expand_of_absent fun t ht => (hplain t ht).2]
  have hparse := parse_of_expand hstart htext
  rw [ofText_of_plain fun t ht => (hplain t ht).1] at hparse
  split at hparse
  · next hempty =>
    have hserves := serves_of_short htop hparse .nil (by simp)
    rwa [List.flatten_nil, ← hempty] at hserves
  · have hserves := serves_of_short htop hparse (.cons (.literal rfl) .nil) fun n hn hlong => by
      rw [List.mem_singleton.1 hn] at hlong
      cases hlong.1
    rwa [List.flatten_singleton] at hserves

/-- A page with marks, a null character, an integer and a string is served as it reads, and one that
only resembles a directive is served unchanged. -/
theorem serves_of_writes_marks :
    let e : Inclusion.Setting := { tree := ⟨[]⟩, cwd := [], policy := { includeDir := ['/'] } }
    let page := ['\'', '"', '\\', '\x00'] ++
      Directive.source ⟨.expr, [' '], "-7 ".toList, ['\n']⟩ ++
      Directive.source ⟨.expr, ['\n'], "'a\"'".toList, []⟩
    0 ≤ e.policy.maxTop ∧
      Serves e page [['\'', '"', '\\', '\x00'], "-7\n".toList, ['a', '"']].flatten ∧
      Serves e ['<', '?', 'g', 'o', ' ', '\r'] ['<', '?', 'g', 'o', ' ', '\r'] := by
  intro e page
  have htop : 0 ≤ e.policy.maxTop := by decide
  have hstart : Inclusion.start e = .ok ⟨[['/']], []⟩ := by cbv
  have habsent : Inclusion.Absent page := Inclusion.absent_of_not_infix (by decide)
  have hnodes : Node.ofText page = [⟨.text, ['\'', '"', '\\', '\x00'], [], [], 1⟩,
      ⟨.expr, "-7 ".toList, ['\n'], "    ".toList, 1⟩, ⟨.expr, "'a\"'".toList, [], [], 2⟩] := by
    decide +kernel
  have hparse : (parse e page).1 = .ok (Node.ofText page) :=
    parse_of_expand hstart (by rw [Inclusion.expand_of_absent habsent])
  rw [hnodes] at hparse
  have hinteger : Node.Writes ⟨.expr, "-7 ".toList, ['\n'], "    ".toList, 1⟩ "-7\n".toList :=
    @Node.Writes.integer _ true 7 rfl (by decide)
  have hstring : Node.Writes ⟨.expr, "'a\"'".toList, [], [], 2⟩ ['a', '"'] :=
    @Node.Writes.string _ '\'' ['a', '"'] rfl (.inr rfl) (by decide) (by simp [Text.isPrintable])
  have hshort : ∀ n ∈ [⟨.text, ['\'', '"', '\\', '\x00'], [], [], 1⟩,
      ⟨.expr, "-7 ".toList, ['\n'], "    ".toList, 1⟩, ⟨.expr, "'a\"'".toList, [], [], 2⟩],
      ¬ Node.HasLongInteger n := by
    intro n hn hlong
    have hlength : ((Text.trim n.text).filter isDigit).length ≤ Decimal.digitLimit := by
      simp only [List.mem_cons, List.not_mem_nil, or_false] at hn
      obtain rfl | rfl | rfl := hn <;> decide
    exact absurd hlong.2.2 (Nat.not_lt.2 hlength)
  refine ⟨htop, (serves_of_writes htop).1 _ _ hparse
    (.cons (.literal rfl) (.cons hinteger (.cons hstring .nil))) hshort, ?_⟩
  refine (serves_of_writes htop).2 _ hstart fun t ht => ⟨?_, ?_⟩
  · rintro ⟨kind, -, spacing, code, rest, -, -, rfl⟩
    have hopening : Directive.opening <:+: ['<', '?', 'g', 'o', ' ', '\r'] := by
      refine List.IsInfix.trans ?_ ht.isInfix
      simp only [List.append_assoc]
      exact (List.prefix_append _ _).isInfix
    exact absurd hopening (by decide)
  · exact Inclusion.absent_of_not_infix (by decide) t ht

/-- A page of nothing but an integer with 4301 digits is not served, and where fewer than no `top`
directives are allowed not even an empty page is. -/
theorem not_serves_longInteger :
    let e : Inclusion.Setting := { tree := ⟨[]⟩, cwd := [], policy := { includeDir := ['/'] } }
    let code := Decimal.ofNat (10 ^ Decimal.digitLimit)
    ((parse e (numberPage (10 ^ Decimal.digitLimit))).1 = .ok [⟨.expr, code, [], [], 1⟩] ∧
      Node.Writes ⟨.expr, code, [], [], 1⟩ code ∧
      ¬ Serves e (numberPage (10 ^ Decimal.digitLimit)) code) ∧
    ¬ Serves { e with policy := { includeDir := ['/'], maxTop := -1 } } [] [] := by
  intro e code
  have hstart : Inclusion.start e = .ok ⟨[['/']], []⟩ := by cbv
  refine ⟨⟨parse_numberPage hstart _, writes_ofNat _,
    not_serves_numberPage (by decide) hstart (Nat.le_refl _) code⟩, ?_⟩
  rintro ⟨code, page, hcompile, -⟩
  have hparse : (parse { e with policy := { includeDir := ['/'], maxTop := -1 } } []).1 =
      .ok [] := by cbv
  have hmany := compile_of_parse hparse (rfl : Layout.ofNodes [] = .ok {})
  rw [if_pos (by decide)] at hmany
  cases hmany.symm.trans hcompile

end Page

end ServerPages
