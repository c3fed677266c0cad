import ServerPages.Proofs.Page.Tiling

/-!
# The lines on which nodes begin

The line of a node is kept while a page is cut: every region moves it on by the newlines that stand
in it, wherever in the region they stand. So it is told by what stands before the region alone
(`Node.line_ofRegions`), and in a page once inclusions are expanded it is one more than the number
of newlines before the region's first character (`Page.parse_lines`).
-/

namespace ServerPages

namespace Region

variable {rs : List Region} {s : Text} {i : Nat} {r : Region}

/-- A region that tiles a text has a first character. -/
theorem Tiles.source_ne_nil (h : Tiles rs s) (hr : r ∈ rs) : r.source ≠ [] := by
  induction h with
  | nil => cases hr
  | literal ne_nil _ _ _ ih =>
    rcases List.mem_cons.mp hr with rfl | hr
    · exact ne_nil
    · exact ih hr
  | directive _ _ _ ih =>
    rcases List.mem_cons.mp hr with rfl | hr
    · simp [source, Directive.source, Directive.opening]
    · exact ih hr

/-- A region stands in the text behind all regions before it. -/
theorem Tiles.isPrefix (h : Tiles rs s) (hr : rs[i]? = some r) :
    (rs.take i).flatMap source ++ r.source <+: s := by
  obtain ⟨hi, rfl⟩ := List.getElem?_eq_some_iff.mp hr
  refine ⟨(rs.drop (i + 1)).flatMap source, ?_⟩
  calc (rs.take i).flatMap source ++ rs[i].source ++ (rs.drop (i + 1)).flatMap source
      = (rs.take i ++ rs[i] :: rs.drop (i + 1)).flatMap source := by
        rw [List.flatMap_append, List.flatMap_cons, List.append_assoc]
    _ = (rs.take i ++ rs.drop i).flatMap source := by rw [List.drop_eq_getElem_cons hi]
    _ = rs.flatMap source := by rw [List.take_append_drop]
    _ = s := by rw [List.flatMap_def, h.flatten_source]

end Region

namespace Node

/-- A node begins behind the newlines of all regions before its own. -/
theorem line_ofRegions {rs : List Region} {line : Nat} {head : Text} {i : Nat} {n : Node}
    (h : (ofRegions line head rs)[i]? = some n) :
    n.line = line + ((rs.take i).flatMap Region.source).count '\n' := by
  induction rs generalizing line head i with
  | nil => cases h
  | cons r rs ih =>
    cases i with
    | zero =>
      obtain rfl := Option.some.inj h
      cases r <;> rfl
    | succ i =>
      have hline : n.line = line + r.source.count '\n' +
          ((rs.take i).flatMap Region.source).count '\n' := ih h
      rw [hline, List.take_succ_cons, List.flatMap_cons, List.count_append, Nat.add_assoc]

end Node

namespace Page

variable {e : Inclusion.Setting} {source text : Text} {st : Inclusion.State}

/-- **Lines.** Once inclusions are expanded, every node of a page shows a region of its text, and
its line is one more than the number of newlines that stand in the text before the region. -/
theorem parse_lines (hstart : Inclusion.start e = .ok st)
    (htext : (Inclusion.expand e source st).1 = .ok text) :
    ∃ nodes regions, (parse e source).1 = .ok nodes ∧ List.Forall₂ Node.Shows nodes regions ∧
      Region.Tiles regions text ∧ ∀ i n, nodes[i]? = some n → ∃ r, regions[i]? = some r ∧
        let before := (regions.take i).flatMap Region.source
        r.source ≠ [] ∧ before ++ r.source <+: text ∧ n.line = 1 + before.count '\n' := by
  have hshows := Node.shows_ofRegions (Region.scan text) 1 []
  have htiles := Region.tiles_scan text
  refine ⟨Node.ofText text, Region.scan text, parse_of_expand hstart htext, hshows, htiles,
    fun i n hn => ?_⟩
  obtain ⟨hi, -⟩ := List.getElem?_eq_some_iff.mp hn
  have hi' : i < (Region.scan text).length := hshows.length_eq ▸ hi
  exact ⟨_, List.getElem?_eq_getElem hi', htiles.source_ne_nil (List.getElem_mem hi'),
    htiles.isPrefix (List.getElem?_eq_getElem hi'), Node.line_ofRegions hn⟩

/-- A page with newlines in its literal text, and behind the keyword, in the code and behind the
terminator of a directive. -/
theorem parse_lines_block :
    let block : Directive := ⟨.block, ['\n', ' '], ['a', '\n', 'b', '\n'], ['\t', '\n']⟩
    let text := ['x', '\n'] ++ block.source ++ ['y']
    let e : Inclusion.Setting := { tree := ⟨[]⟩, cwd := [], policy := { includeDir := ['/'] } }
    Inclusion.start e = .ok ⟨[['/']], []⟩ ∧
      (Inclusion.expand e text ⟨[['/']], []⟩).1 = .ok text ∧
      ∃ nodes regions, (parse e text).1 = .ok nodes ∧ List.Forall₂ Node.Shows nodes regions ∧
        Region.Tiles regions text ∧ ∀ i n, nodes[i]? = some n → ∃ r, regions[i]? = some r ∧
          let before := (regions.take i).flatMap Region.source
          r.source ≠ [] ∧ before ++ r.source <+: text ∧ n.line = 1 + before.count '\n' := by
  intro block text e
  have habsent : Inclusion.Absent text := Inclusion.absent_of_not_infix (by decide)
  have hstart : Inclusion.start e = .ok ⟨[['/']], []⟩ := by cbv
  have htext : (Inclusion.expand e text ⟨[['/']], []⟩).1 = .ok text := by
    rw [Inclusion.expand_of_absent habsent]
  exact ⟨hstart, htext, parse_lines hstart htext⟩

end Page

end ServerPages
