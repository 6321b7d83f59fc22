import Mathlib.Data.List.TakeWhile
import Mathlib.Tactic.SplitIfs
import JmyGame.CommonMessages

/-! `JmyCsvParser`: the lines of a file are cut into items with `strtok`. It skips runs of separators, so an empty cell
is never an item. -/

namespace JmyGame

open CArith

/-- `strtok`: the token at the beginning of a text, and the text behind the separator that ends it. -/
def strtok (delimiters s : Str) : Option (Str × Str) :=
  match s.dropWhile fun c => c ∈ delimiters with
  | [] => none
  | c :: t => some ((c :: t).takeWhile fun c => c ∉ delimiters, ((c :: t).dropWhile fun c => c ∉ delimiters).tail)

/-- A token is in the text, and the text behind it is shorter. -/
theorem of_strtok {delimiters s token rest : Str} (h : strtok delimiters s = some (token, rest)) :
    token ⊆ s ∧ rest ⊆ s ∧ rest.length < s.length := by
  have hdrop := List.dropWhile_suffix (fun c => decide (c ∈ delimiters)) (l := s)
  unfold strtok at h
  split at h
  · exact nomatch h
  · rename_i c t heq
    cases h
    rw [heq] at hdrop
    have hrest := (List.dropWhile_suffix (fun c => decide (c ∉ delimiters)) (l := c :: t))
    refine ⟨fun a ha => hdrop.subset ((List.takeWhile_prefix _).subset ha),
      fun a ha => hdrop.subset (hrest.subset (List.mem_of_mem_tail ha)), ?_⟩
    have hle := hdrop.length_le
    have hle' := hrest.length_le
    rw [List.length_tail]
    rw [List.length_cons] at hle hle'
    omega

namespace JmyCsvParser

/-- `,\r`. -/
def separators : Str := [44, 13]

/-- The items that `strtok` finds in a text, one call after the other. -/
def parseItems (s : Str) : List Str :=
  match h : strtok separators s with
  | none => []
  | some (token, rest) =>
      have := (of_strtok h).2.2
      if token ≠ [] then token :: parseItems rest else parseItems rest
termination_by s.length

/-- `parseLine`, which reads a line up to its first zero byte. -/
def parseLine (line : Str) : List Str := parseItems (line.takeWhile fun c => c ≠ 0)

/-- The loop of `load` over the lines that are left, of which the first has the number `n`. -/
def loadLines : List Str → ℕ → ℕ → List (List Str) → Bool × List (List Str)
  | [], _, _, lines => (true, lines)
  | line :: rest, n, itemNum, lines =>
      let items := parseLine line
      let itemNum := if n = 0 then items.length else itemNum
      if 0 < items.length then
        if itemNum ≠ items.length then (false, []) else loadLines rest (n + 1) itemNum (lines ++ [items])
      else loadLines rest (n + 1) itemNum lines

/-- `load` of a file with a content into a parser with some lines. -/
def load (lines : List (List Str)) (content : Str) : Bool × List (List Str) :=
  loadLines (content.splitOn 10) 0 0 lines

theorem parseItems_none {s : Str} (h : strtok separators s = none) : parseItems s = [] := by
  rw [parseItems]
  split
  · rfl
  · rename_i token rest hsome
    exact nomatch h.symm.trans hsome

theorem parseItems_some {s token rest : Str} (h : strtok separators s = some (token, rest)) (htoken : token ≠ []) :
    parseItems s = token :: parseItems rest := by
  rw [parseItems]
  split
  · rename_i hnone
    exact nomatch h.symm.trans hnone
  · rename_i token' rest' hsome
    cases h.symm.trans hsome
    exact if_pos htoken

/-- An item is not empty and has no byte that the text has not. -/
theorem of_mem_parseItems (s : Str) {item : Str} (hitem : item ∈ parseItems s) : item ≠ [] ∧ item ⊆ s := by
  induction s using parseItems.induct with
  | case1 s hnone =>
      rw [parseItems_none hnone] at hitem
      exact nomatch hitem
  | case2 s token rest hsome hlt htoken ih =>
      obtain ⟨hsub, hrest, -⟩ := of_strtok hsome
      rw [parseItems_some hsome htoken] at hitem
      obtain rfl | hitem := List.mem_cons.1 hitem
      · exact ⟨htoken, hsub⟩
      · exact ⟨(ih hitem).1, fun c hc => hrest ((ih hitem).2 hc)⟩
  | case3 s token rest hsome hlt htoken ih =>
      obtain ⟨-, hrest, -⟩ := of_strtok hsome
      rw [parseItems] at hitem
      split at hitem
      · exact nomatch hitem
      · rename_i token' rest' hsome'
        cases hsome.symm.trans hsome'
        rw [if_neg htoken] at hitem
        exact ⟨(ih hitem).1, fun c hc => hrest ((ih hitem).2 hc)⟩

/-- A text without separators before one, or at the end, is the next token. -/
theorem strtok_append {delimiters cell t : Str} (hcell : cell ≠ []) (hplain : ∀ c ∈ cell, c ∉ delimiters)
    (ht : ∀ c ∈ t.head?, c ∈ delimiters) : strtok delimiters (cell ++ t) = some (cell, t.tail) := by
  obtain ⟨c, cs, rfl⟩ := List.exists_cons_of_ne_nil hcell
  have hpos : ∀ a ∈ c :: cs, decide (a ∉ delimiters) = true := fun a ha => decide_eq_true (hplain a ha)
  have hkeep : ((c :: cs) ++ t).dropWhile (fun c => decide (c ∈ delimiters)) = c :: (cs ++ t) :=
    List.dropWhile_cons_of_neg (by simpa using hplain c List.mem_cons_self)
  have htake : (c :: (cs ++ t)).takeWhile (fun c => decide (c ∉ delimiters)) = c :: cs := by
    rw [← List.cons_append, List.takeWhile_append_of_pos hpos]
    cases t with
    | nil => exact List.append_nil _
    | cons a t => rw [List.takeWhile_cons_of_neg (by simpa using ht a rfl), List.append_nil]
  have hdrop : (c :: (cs ++ t)).dropWhile (fun c => decide (c ∉ delimiters)) = t := by
    rw [← List.cons_append, List.dropWhile_append_of_pos hpos]
    cases t with
    | nil => rfl
    | cons a t => exact List.dropWhile_cons_of_neg (by simpa using ht a rfl)
  unfold strtok
  rw [hkeep]
  dsimp only
  rw [htake, hdrop]

/-- A row of cells as the text of a line. -/
def lineText (row : List Str) : Str := [44].intercalate row

theorem lineText_cons {cell : Str} {row : List Str} (hrow : row ≠ []) :
    lineText (cell :: row) = cell ++ 44 :: lineText row := by
  rw [lineText, List.intercalate_cons_of_ne_nil hrow, List.append_assoc]
  rfl

theorem of_mem_lineText {row : List Str} {c : Byte} (hc : c ∈ lineText row) : c = 44 ∨ ∃ cell ∈ row, c ∈ cell := by
  induction row with
  | nil => exact nomatch hc
  | cons cell row ih =>
      by_cases hrow : row = []
      · rw [hrow, lineText, List.intercalate_singleton] at hc
        exact Or.inr ⟨cell, List.mem_cons_self, hc⟩
      · rw [lineText_cons hrow, List.mem_append, List.mem_cons] at hc
        rcases hc with hc | hc | hc
        · exact Or.inr ⟨cell, List.mem_cons_self, hc⟩
        · exact Or.inl hc
        · exact (ih hc).imp_right fun ⟨cell', hcell', hmem⟩ => ⟨cell', List.mem_cons_of_mem cell hcell', hmem⟩

/-- The cells of a row are the items of its line, also before a carriage return. -/
theorem parseItems_lineText {row : List Str} (hrow : row ≠ [])
    (hcells : ∀ cell ∈ row, cell ≠ [] ∧ ∀ c ∈ cell, c ∉ separators) {t : Str} (ht : t = [] ∨ t = [13]) :
    parseItems (lineText row ++ t) = row := by
  induction row with
  | nil => exact absurd rfl hrow
  | cons cell row ih =>
      obtain ⟨hcell, hplain⟩ := hcells cell List.mem_cons_self
      by_cases hlast : row = []
      · have htail : t.tail = [] := by
          rcases ht with rfl | rfl <;> rfl
        have hhead : ∀ c ∈ t.head?, c ∈ separators := by
          rcases ht with rfl | rfl <;> decide
        rw [hlast, lineText, List.intercalate_singleton, parseItems_some (strtok_append hcell hplain hhead) hcell,
          htail, parseItems_none rfl]
      · have hhead : ∀ c ∈ (44 :: (lineText row ++ t)).head?, c ∈ separators := by
          intro c hc
          rw [← Option.some.inj hc]
          decide
        rw [lineText_cons hlast, List.append_assoc, List.cons_append,
          parseItems_some (strtok_append hcell hplain hhead) hcell, List.tail_cons,
          ih hlast fun cell' hcell' => hcells cell' (List.mem_cons_of_mem cell hcell')]

/-- The lines whose number is not 0 are appended, without the empty ones, if they have as many items as the first. -/
theorem loadLines_rest {k : ℕ} {rest : List Str}
    (hrest : ∀ line ∈ rest, parseLine line ≠ [] → (parseLine line).length = k)
    (n : ℕ) (lines : List (List Str)) :
    loadLines rest (n + 1) k lines = (true, lines ++ (rest.map parseLine).filter fun items => items ≠ []) := by
  induction rest generalizing n lines with
  | nil => rw [loadLines, List.map_nil, List.filter_nil, List.append_nil]
  | cons line rest ih =>
      have ih := ih fun line' hline' => hrest line' (List.mem_cons_of_mem line hline')
      rw [loadLines, if_neg (Nat.succ_ne_zero n), List.map_cons]
      by_cases hitems : parseLine line = []
      · rw [hitems, if_neg (by decide), List.filter_cons_of_neg (by decide)]
        exact ih (n + 1) lines
      · have hlength := hrest line List.mem_cons_self hitems
        rw [if_pos (List.length_pos_iff.2 hitems), if_neg (not_not.2 hlength.symm), ih,
          List.filter_cons_of_pos (by simpa using hitems), List.append_assoc, List.singleton_append]

/-- Lines without items leave nothing behind. -/
theorem loadLines_blank {rest : List Str} (hrest : ∀ line ∈ rest, parseLine line = []) (n itemNum : ℕ)
    (lines : List (List Str)) : loadLines rest n itemNum lines = (true, lines) := by
  induction rest generalizing n itemNum with
  | nil => rfl
  | cons line rest ih =>
      rw [loadLines, hrest line List.mem_cons_self, if_neg (by decide)]
      exact ih (fun line' hline' => hrest line' (List.mem_cons_of_mem line hline')) _ _

/-- Every loaded line is the items of a line of the file. -/
theorem of_mem_loadLines {rest : List Str} {n itemNum : ℕ} {lines : List (List Str)} {row : List Str}
    (hrow : row ∈ (loadLines rest n itemNum lines).2) : row ∈ lines ∨ ∃ line, row = parseLine line := by
  induction rest generalizing n itemNum lines with
  | nil => exact Or.inl hrow
  | cons line rest ih =>
      have hpush : ∀ j, row ∈ (loadLines rest (n + 1) j (lines ++ [parseLine line])).2 →
          row ∈ lines ∨ ∃ line, row = parseLine line := by
        intro j hmem
        rcases ih hmem with hmem | hline
        · rcases List.mem_append.1 hmem with hmem | hmem
          · exact Or.inl hmem
          · exact Or.inr ⟨line, List.mem_singleton.1 hmem⟩
        · exact Or.inr hline
      rw [loadLines] at hrow
      split_ifs at hrow
      · exact nomatch hrow
      · exact hpush _ hrow
      · exact nomatch hrow
      · exact hpush _ hrow
      · exact ih hrow
      · exact ih hrow

/-- An item that `load` finds is not empty and has no zero byte. -/
theorem of_mem_load {content : Str} {row : List Str} {item : Str} (hrow : row ∈ (load [] content).2)
    (hitem : item ∈ row) : item ≠ [] ∧ 0 ∉ item := by
  rcases of_mem_loadLines hrow with hnil | ⟨line, hline⟩
  · exact nomatch hnil
  · rw [hline] at hitem
    obtain ⟨hne, hsub⟩ := of_mem_parseItems _ hitem
    refine ⟨hne, fun hzero => ?_⟩
    have hkept := List.mem_takeWhile_imp (hsub hzero)
    exact of_decide_eq_true hkept rfl

inductive LineEnd where
  | lf
  | crlf
  deriving DecidableEq, Repr

/-- What a line ends with before its line feed. -/
def LineEnd.carriage : LineEnd → Str
  | .lf => []
  | .crlf => [13]

end JmyCsvParser

open JmyCsvParser

/-- A rectangular table whose cells can be written between commas. -/
structure CsvTable where
  rows : List (List Str)
  columns : ℕ
  columnsPos : 1 ≤ columns
  width : ∀ row ∈ rows, row.length = columns
  plain : ∀ row ∈ rows, ∀ cell ∈ row, 44 ∉ cell ∧ 13 ∉ cell ∧ 10 ∉ cell

namespace CsvTable

/-- The file of some rows: the cells are joined with commas and the lines with the line end, which the last line has,
too, or has not. -/
def fileText (lineEnd : LineEnd) (last : Bool) (rows : List (List Str)) : Str :=
  (lineEnd.carriage ++ [10]).intercalate (rows.map lineText) ++ if last then lineEnd.carriage ++ [10] else []

/-- Every cell has text in it, and no zero byte. -/
def Filled (rows : List (List Str)) : Prop := ∀ row ∈ rows, ∀ cell ∈ row, cell ≠ [] ∧ 0 ∉ cell

variable {lineEnd : LineEnd}

/-- The line of a row is parsed to the row. -/
theorem parseLine_lineText {row : List Str} (hrow : row ≠ [])
    (hplain : ∀ cell ∈ row, 44 ∉ cell ∧ 13 ∉ cell ∧ 10 ∉ cell) (hfilled : ∀ cell ∈ row, cell ≠ [] ∧ 0 ∉ cell)
    {t : Str} (ht : t = [] ∨ t = [13]) : parseLine (lineText row ++ t) = row ∧ 10 ∉ lineText row ++ t := by
  have hmem : ∀ c ∈ lineText row ++ t, c = 44 ∨ c = 13 ∨ ∃ cell ∈ row, c ∈ cell := by
    intro c hc
    rcases List.mem_append.1 hc with hc | hc
    · exact (of_mem_lineText hc).imp_right Or.inr
    · rcases ht with rfl | rfl
      · exact nomatch hc
      · exact Or.inr (Or.inl (List.mem_singleton.1 hc))
  have hzero : ∀ c ∈ lineText row ++ t, decide (c ≠ 0) = true := by
    intro c hc
    rw [decide_eq_true_iff]
    rintro rfl
    rcases hmem 0 hc with h | h | ⟨cell, hcell, h⟩
    · exact absurd h (by decide)
    · exact absurd h (by decide)
    · exact (hfilled cell hcell).2 h
  constructor
  · rw [parseLine, List.takeWhile_eq_self_iff.2 hzero]
    refine parseItems_lineText hrow (fun cell hcell => ⟨(hfilled cell hcell).1, fun c hc hsep => ?_⟩) ht
    obtain ⟨hcomma, hcr, -⟩ := hplain cell hcell
    rcases List.mem_cons.1 hsep with rfl | hsep
    · exact hcomma hc
    · rw [List.mem_singleton.1 hsep] at hc
      exact hcr hc
  · intro hlf
    rcases hmem 10 hlf with h | h | ⟨cell, hcell, h⟩
    · exact absurd h (by decide)
    · exact absurd h (by decide)
    · exact (hplain cell hcell).2.2 h

theorem fileText_cons {last : Bool} {row : List Str} {rows : List (List Str)} (hrows : rows ≠ []) :
    fileText lineEnd last (row :: rows) = (lineText row ++ lineEnd.carriage) ++ 10 :: fileText lineEnd last rows := by
  have hmap : rows.map lineText ≠ [] := fun h => hrows (List.map_eq_nil_iff.1 h)
  rw [fileText, List.map_cons, List.intercalate_cons_of_ne_nil hmap, fileText]
  simp only [List.append_assoc, List.cons_append, List.nil_append]

theorem fileText_singleton {last : Bool} {row : List Str} :
    fileText lineEnd last [row] =
      if last then (lineText row ++ lineEnd.carriage) ++ [10] else lineText row ++ [] := by
  rw [fileText, List.map_singleton, List.intercalate_singleton]
  cases last with
  | true => exact (List.append_assoc _ _ _).symm
  | false => rfl

/-- The lines of a file are parsed to its rows, and an empty line behind the last line end to nothing. -/
theorem parse_fileText (lineEnd : LineEnd) (last : Bool) {rows : List (List Str)} (hrows : rows ≠ [])
    (hrow : ∀ row ∈ rows, row ≠ []) (hplain : ∀ row ∈ rows, ∀ cell ∈ row, 44 ∉ cell ∧ 13 ∉ cell ∧ 10 ∉ cell)
    (hfilled : Filled rows) :
    ((fileText lineEnd last rows).splitOn 10).map parseLine = rows ++ if last then [[]] else [] := by
  have hcarriage : lineEnd.carriage = [] ∨ lineEnd.carriage = [13] := by
    cases lineEnd with
    | lf => exact Or.inl rfl
    | crlf => exact Or.inr rfl
  have hempty : parseLine [] = [] := parseItems_none rfl
  induction rows with
  | nil => exact absurd rfl hrows
  | cons row rows ih =>
      have hmem : row ∈ row :: rows := List.mem_cons_self
      have hline : ∀ t, t = [] ∨ t = [13] → parseLine (lineText row ++ t) = row ∧ 10 ∉ lineText row ++ t := fun t =>
        parseLine_lineText (hrow row hmem) (hplain row hmem) (hfilled row hmem)
      obtain ⟨hparse, hlf⟩ := hline _ hcarriage
      by_cases hlast : rows = []
      · subst hlast
        rw [fileText_singleton]
        cases last with
        | true =>
            rw [if_pos rfl, List.splitOn_append_cons_self_of_not_mem hlf, List.map_cons, hparse, List.splitOn_nil,
              List.map_singleton, hempty]
            rfl
        | false =>
            obtain ⟨hparse, hlf⟩ := hline [] (Or.inl rfl)
            rw [if_neg Bool.false_ne_true, List.splitOn_eq_singleton hlf, List.map_singleton, hparse]
            rfl
      · have hrest : ∀ row' ∈ rows, row' ∈ row :: rows := fun row' hrow' => List.mem_cons_of_mem row hrow'
        rw [fileText_cons hlast, List.splitOn_append_cons_self_of_not_mem hlf, List.map_cons, hparse,
          ih hlast (fun row' hrow' => hrow row' (hrest row' hrow')) (fun row' hrow' => hplain row' (hrest row' hrow'))
            fun row' hrow' => hfilled row' (hrest row' hrow')]
        rfl

/-- A file without rows has lines without items. -/
theorem load_fileText_nil (lineEnd : LineEnd) (last : Bool) : load [] (fileText lineEnd last []) = (true, []) := by
  refine loadLines_blank (fun line hline => ?_) 0 0 []
  have hline : line = [] ∨ line = [13] := by
    cases lineEnd <;> cases last <;> revert line <;> decide
  rcases hline with rfl | rfl <;> exact parseItems_none rfl

/-- A table is loaded as it is exactly when each of its cells has text in it, and no zero byte. -/
theorem load_fileText_iff (t : CsvTable) (lineEnd : LineEnd) (last : Bool) :
    load [] (fileText lineEnd last t.rows) = (true, t.rows) ↔ Filled t.rows := by
  constructor
  · intro hload row hrow cell hcell
    have hrow' : row ∈ (load [] (fileText lineEnd last t.rows)).2 := by
      rw [hload]
      exact hrow
    exact of_mem_load hrow' hcell
  · intro hfilled
    by_cases hrows : t.rows = []
    · rw [hrows]
      exact load_fileText_nil lineEnd last
    have hne : ∀ row ∈ t.rows, row ≠ [] := fun row hrow =>
      List.ne_nil_of_length_pos ((t.width row hrow).symm ▸ t.columnsPos)
    have hparse := parse_fileText lineEnd last hrows hne t.plain hfilled
    obtain ⟨row, rows, ht⟩ := List.exists_cons_of_ne_nil hrows
    obtain ⟨line, rest, hlines⟩ := List.exists_cons_of_ne_nil (List.splitOn_ne_nil 10 (fileText lineEnd last t.rows))
    have hwidth := t.width
    rw [hlines, ht, List.map_cons, List.cons_append, List.cons.injEq] at hparse
    rw [ht] at hwidth hne
    obtain ⟨hrow, hrest⟩ := hparse
    have hlength : ∀ line' ∈ rest, parseLine line' ≠ [] → (parseLine line').length = row.length := by
      intro line' hline' hitems
      have hmem : parseLine line' ∈ rest.map parseLine := List.mem_map_of_mem hline'
      rw [hrest, List.mem_append] at hmem
      rcases hmem with hmem | hmem
      · rw [hwidth row List.mem_cons_self, hwidth _ (List.mem_cons_of_mem row hmem)]
      · cases last with
        | true => exact absurd (List.mem_singleton.1 hmem) hitems
        | false => exact nomatch hmem
    have hfilter : (rows ++ if last then [[]] else []).filter (fun items => decide (items ≠ [])) = rows := by
      rw [List.filter_append, List.filter_eq_self.2 fun items hitems =>
        decide_eq_true (hne items (List.mem_cons_of_mem row hitems))]
      cases last <;> exact List.append_nil rows
    rw [load, hlines, loadLines, if_pos rfl, hrow, if_pos (List.length_pos_iff.2 (hne row List.mem_cons_self)),
      if_neg (not_not.2 rfl), loadLines_rest hlength, hrest, hfilter, ht]
    rfl

/-- The second cell of a row is empty: the row has one item, and the next has two. -/
def emptyCell : CsvTable := ⟨[[[97], []], [[98], [99]]], 2, by decide, by decide, by decide⟩

theorem load_emptyCell : load [] (fileText .lf false emptyCell.rows) ≠ (true, emptyCell.rows) := by
  intro hload
  have hrow : [[97], []] ∈ (load [] (fileText .lf false emptyCell.rows)).2 := by
    rw [hload]
    exact List.mem_cons_self
  exact (of_mem_load hrow (List.mem_cons_of_mem [97] List.mem_cons_self)).1 rfl

end CsvTable

end JmyGame
