import Mathlib.Data.Nat.Digits.Defs
import JmyGame.LibLoop
import JmyGame.LibUnorderedMap
import JmyGame.CommonCsv
import JmyGame.ClusterItems
import JmyGame.GeneratorFields

/-! `GenerateSource` of the CSV generator. From the first two lines of a table it makes a class that loads a table, and
from the number of its lines the number of lines that the class reads. What the class makes of a table of the same
columns follows, where the table is written as text and read back by `JmyCsvParser`. -/

namespace JmyGame

open CArith

/-- `strtol` with base 10, which gives the nearest value that a `long` has. -/
def strtol (s : Str) : ℤ :=
  let value (digits : Str) (negate : Bool) : ℤ :=
    let n : ℤ := digitsValue 0 digits
    if negate then max (-2 ^ 63) (-n) else min (2 ^ 63 - 1) n
  match s.dropWhile isSpace with
  | [] => 0
  | c :: cs => if c = 45 then value cs true else if c = 43 then value cs false else value (c :: cs) false

/-- `std::atoi`, whose result is a `long` that is put into an `int`. -/
def atoi (s : Str) : ℤ := (BitVec.ofInt 32 (strtol s)).toInt

/-- The decimal digits of a number. -/
def natText (n : ℕ) : Str := if n = 0 then [48] else (Nat.digits 10 n).reverse.map fun d => BitVec.ofNat 8 (48 + d)

def intText (v : ℤ) : Str := if v < 0 then 45 :: natText v.natAbs else natText v.natAbs

theorem natText_ne_nil (n : ℕ) : natText n ≠ [] := by
  unfold natText
  split_ifs with h
  · exact List.cons_ne_nil _ _
  · intro hnil
    exact h (Nat.digits_eq_nil_iff_eq_zero.1 (List.reverse_eq_nil_iff.1 (List.map_eq_nil_iff.1 hnil)))

theorem natText_digit {n : ℕ} {c : Byte} (h : c ∈ natText n) : 48 ≤ c.toNat ∧ c.toNat ≤ 57 := by
  unfold natText at h
  split_ifs at h
  · rw [List.mem_singleton.1 h]
    decide
  · obtain ⟨d, hd, rfl⟩ := List.mem_map.1 h
    have hlt : d < 10 := Nat.digits_lt_base (by decide) (List.mem_reverse.1 hd)
    rw [BitVec.toNat_ofNat]
    omega

/-- Digits from the last one to the first one. -/
theorem digitsValue_reverse (digits : List ℕ) (h : ∀ d ∈ digits, d < 10) :
    digitsValue 0 (digits.reverse.map fun d => BitVec.ofNat 8 (48 + d)) = Nat.ofDigits 10 digits := by
  have happend : ∀ (s t : Str) (acc : ℕ), (∀ c ∈ s, 48 ≤ c.toNat ∧ c.toNat ≤ 57) →
      digitsValue acc (s ++ t) = digitsValue (digitsValue acc s) t := by
    intro s t acc hs
    induction s generalizing acc with
    | nil => rfl
    | cons c s ih =>
        obtain ⟨hc, hs⟩ := List.forall_mem_cons.1 hs
        rw [List.cons_append, digitsValue, digitsValue, if_pos hc, if_pos hc, ih _ hs]
  have hbyte : ∀ d < 10, (BitVec.ofNat 8 (48 + d)).toNat = 48 + d := by
    intro d hd
    rw [BitVec.toNat_ofNat]
    omega
  induction digits with
  | nil => rfl
  | cons d digits ih =>
      obtain ⟨hd, hdigits⟩ := List.forall_mem_cons.1 h
      have hs : ∀ c ∈ digits.reverse.map fun d => BitVec.ofNat 8 (48 + d), 48 ≤ c.toNat ∧ c.toNat ≤ 57 := by
        intro c hc
        obtain ⟨e, he, rfl⟩ := List.mem_map.1 hc
        have hlt := hdigits e (List.mem_reverse.1 he)
        rw [hbyte e hlt]
        omega
      rw [List.reverse_cons, List.map_append, happend _ _ _ hs, ih hdigits, Nat.ofDigits_cons, List.map_singleton,
        digitsValue, hbyte d hd, if_pos (by omega), digitsValue]
      omega

theorem digitsValue_natText (n : ℕ) : digitsValue 0 (natText n) = n := by
  unfold natText
  split_ifs with h
  · rw [h]
    rfl
  · rw [digitsValue_reverse _ fun d hd => Nat.digits_lt_base (by decide) hd, Nat.ofDigits_digits]

/-- A number has a sign, or a digit at its front. -/
theorem intText_cases (v : ℤ) : (v < 0 ∧ intText v = 45 :: natText v.natAbs) ∨
    (0 ≤ v ∧ ∃ c cs, intText v = c :: cs ∧ natText v.natAbs = c :: cs ∧ c ≠ 45 ∧ c ≠ 43 ∧ isSpace c = false) := by
  unfold intText
  split_ifs with h
  · exact Or.inl ⟨h, rfl⟩
  · obtain ⟨c, cs, hc⟩ := List.exists_cons_of_ne_nil (natText_ne_nil v.natAbs)
    have hdigit := natText_digit (hc ▸ List.mem_cons_self : c ∈ natText v.natAbs)
    refine Or.inr ⟨not_lt.1 h, c, cs, hc, hc, ?_, ?_, ?_⟩
    · rintro rfl
      exact absurd hdigit.1 (by decide)
    · rintro rfl
      exact absurd hdigit.1 (by decide)
    · simp only [isSpace, decide_eq_false_iff_not]
      omega

theorem strtol_intText {v : ℤ} (hmin : -2 ^ 63 ≤ v) (hmax : v < 2 ^ 63) : strtol (intText v) = v := by
  unfold strtol
  rcases intText_cases v with ⟨hv, htext⟩ | ⟨hv, c, cs, htext, hnat, hminus, hplus, hspace⟩
  · rw [htext, List.dropWhile_cons_of_neg (by decide)]
    simp only [if_pos, digitsValue_natText]
    omega
  · rw [htext, List.dropWhile_cons_of_neg (by rw [hspace]; decide)]
    simp only [if_neg hminus, if_neg hplus, ← hnat, digitsValue_natText]
    simp only [Bool.false_eq_true, if_false]
    omega

theorem atoi_intText {v : ℤ} (hmin : -2 ^ 31 ≤ v) (hmax : v < 2 ^ 31) : atoi (intText v) = v := by
  rw [atoi, strtol_intText (by omega) (by omega), BitVec.toInt_ofInt, Int.bmod_eq_of_le (by omega) (by omega)]

theorem strtoul_intText {v : ℤ} (hmin : -2 ^ 63 ≤ v) (hmax : v < 2 ^ 63) : (strtoul (intText v)).toInt = v := by
  have hofInt : strtoul (intText v) = BitVec.ofInt 64 v := by
    unfold strtoul
    rcases intText_cases v with ⟨hv, htext⟩ | ⟨hv, c, cs, htext, hnat, hminus, hplus, hspace⟩
    · rw [htext, List.dropWhile_cons_of_neg (by decide)]
      simp only [if_pos, digitsValue_natText]
      rw [if_neg (by omega), ← BitVec.ofInt_natCast, ← BitVec.ofInt_neg]
      congr 1
      omega
    · rw [htext, List.dropWhile_cons_of_neg (by rw [hspace]; decide)]
      simp only [if_neg hminus, if_neg hplus, ← hnat, digitsValue_natText]
      rw [if_neg (by omega), if_neg (by decide), ← BitVec.ofInt_natCast]
      congr 1
      omega
  rw [hofInt, BitVec.toInt_ofInt, Int.bmod_eq_of_le (by omega) (by omega)]

/-- An object is named by its number; `newObject` takes the next one. -/
structure JmyObjectSet (κ : Type) where
  map : UnorderedMap κ ℕ
  vec : List ℕ

namespace JmyObjectSet

variable {κ : Type} [DecidableEq κ]

def empty : JmyObjectSet κ := ⟨∅, []⟩

variable (s : JmyObjectSet κ)

def count : ℕ := s.vec.length

def insertKeyValue (key : κ) (value : ℕ) : JmyObjectSet κ := { s with map := s.map.emplace key value }

def pushValue (value : ℕ) : JmyObjectSet κ := { s with vec := s.vec ++ [value] }

def getByKey (key : κ) : Option ℕ := s.map.find key

def getByIndex (index : ℕ) : Option ℕ := s.vec[index]?

end JmyObjectSet

/-- The types that a column can have. -/
inductive FieldType where
  | int
  | int64
  | string
  | bool
  deriving DecidableEq, Repr

namespace FieldType

/-- The word for the type in the second line of a table. -/
def word : FieldType → Str
  | int => chars "int"
  | int64 => chars "int64"
  | string => chars "string"
  | bool => chars "bool"

/-- The tests of `writeStruct` and `writeParseDataFunc`. -/
def ofWord (s : Str) : Option FieldType :=
  if s = chars "int" then some int
  else if s = chars "int64" then some int64
  else if s = chars "string" then some string
  else if s = chars "bool" then some bool
  else none

theorem ofWord_word (t : FieldType) : ofWord t.word = some t := by
  cases t <;> decide

end FieldType

/-- A line of `parseData`: `data.field = conversion(line[index]);`. -/
structure CsvAssign where
  field : Str
  type : FieldType
  index : ℕ
  deriving DecidableEq

/-- A class `name_table` with its struct `name`: the fields of the struct, the type of the key as it is written, the
end of the loop in `parseData`, what this does with a line and the field that it takes the key from. -/
structure CsvClass where
  name : Str
  fields : List (FieldType × Str)
  keyType : Str
  lineCount : ℕ
  assigns : List CsvAssign
  keyField : Str
  deriving DecidableEq

namespace GenerateSource

/-- The part of a path behind its last slash, up to a point that is not at its front. -/
def fileName (path : Str) : Str :=
  let fn := (path.reverse.takeWhile (· ≠ 47)).reverse
  if fn.head? = some 46 then fn else fn.takeWhile (· ≠ 46)

/-- `writeStruct`, or nothing where it returns false. -/
def writeStruct (names types : List Str) : Option (List (FieldType × Str)) :=
  if names.length = 0 ∨ names.length ≠ types.length then none
  else (types.zip names).mapM fun p => (FieldType.ofWord p.1).map fun type => (type, p.2)

/-- The loop over the fields in `writeParseDataFunc`. -/
def writeAssigns (names types : List Str) : Option (List CsvAssign) :=
  (types.zip names).zipIdx.mapM fun p => (FieldType.ofWord p.1.1).map fun type => ⟨p.1.2, type, p.2⟩

/-- `init` for the content of a file: nothing where it reads a line that is not there, and nothing inside where it
returns false. `KEY_INDEX` is 0. -/
def init (path content : Str) : Option (Option CsvClass) :=
  let loaded := JmyCsvParser.load [] content
  if loaded.1 = false then some none
  else if 47 ∉ path then some none
  else match loaded.2 with
  | names :: types :: _ => some ((writeStruct names types).bind fun fields =>
      (writeAssigns names types).map fun assigns =>
        ⟨fileName path, fields, types.headD [], loaded.2.length, assigns, names.headD []⟩)
  | _ => none

end GenerateSource

/-- A value of a field. -/
inductive CsvValue where
  | int (v : ℤ)
  | int64 (v : ℤ)
  | string (s : Str)
  | bool (b : Bool)
  deriving DecidableEq

/-- What is assigned for the text of a cell. -/
def FieldType.convert : FieldType → Str → CsvValue
  | int, cell => .int (atoi cell)
  | int64, cell => .int64 (strtoul cell).toInt
  | string, cell => .string cell
  | bool, cell => .bool (atoi cell ≠ 0)

/-- A value of the struct. -/
abbrev CsvData := Str → CsvValue

/-- An object of the class, with the objects that were made. -/
structure CsvObjects where
  objs : JmyObjectSet CsvValue
  heap : List CsvData

namespace CsvObjects

def empty : CsvObjects := ⟨.empty, []⟩

variable (t : CsvObjects)

def count : ℕ := t.objs.count

def get (key : CsvValue) : Option CsvData := (t.objs.getByKey key).bind fun p => t.heap[p]?

def getByIndex (index : ℕ) : Option CsvData := (t.objs.getByIndex index).bind fun p => t.heap[p]?

/-- A new object with a key. -/
def push (key : CsvValue) (data : CsvData) : CsvObjects :=
  ⟨(t.objs.insertKeyValue key t.heap.length).pushValue t.heap.length, t.heap ++ [data]⟩

end CsvObjects

/-- The keywords of C++. -/
def cppKeywords : List Str := ["alignas", "alignof", "and", "and_eq", "asm", "auto", "bitand", "bitor", "bool", "break",
  "case", "catch", "char", "char16_t", "char32_t", "class", "compl", "const", "const_cast", "constexpr", "continue",
  "decltype", "default", "delete", "do", "double", "dynamic_cast", "else", "enum", "explicit", "export", "extern",
  "false", "float", "for", "friend", "goto", "if", "inline", "int", "long", "mutable", "namespace", "new", "noexcept",
  "not", "not_eq", "nullptr", "operator", "or", "or_eq", "private", "protected", "public", "register",
  "reinterpret_cast", "return", "short", "signed", "sizeof", "static", "static_assert", "static_cast", "struct",
  "switch", "template", "this", "thread_local", "throw", "true", "try", "typedef", "typeid", "typename", "union",
  "unsigned", "using", "virtual", "void", "volatile", "wchar_t", "while", "xor", "xor_eq"].map chars

/-- The names that the emitted text has for other things than the struct. -/
def emittedNames : List Str := ["JmyCsvParser", "JmyObjectSet", "close", "count", "d", "data", "file_path", "get",
  "getByIndex", "i", "index", "int64_t", "key", "line", "lines", "load", "objs_", "parseData", "parser", "s", "size_t",
  "std", "uint32_t"].map chars

def isLetter (c : Byte) : Bool := 65 ≤ c.toNat && c.toNat ≤ 90 || 97 ≤ c.toNat && c.toNat ≤ 122 || c = 95

/-- A name that a program may give. -/
def isIdentifier (s : Str) : Bool :=
  s.head?.any isLetter && s.all (fun c => isLetter c || 48 ≤ c.toNat && c.toNat ≤ 57) && !cppKeywords.contains s

namespace CsvClass

variable (c : CsvClass)

/-- The emitted text is a program. The type of the key stands in it as the table has it, and of the four words only
`int` and `bool` are types. -/
def compiles : Bool :=
  isIdentifier c.name && !emittedNames.contains c.name && c.fields.all (fun field => isIdentifier field.2) &&
    (c.fields.map Prod.snd).Nodup && (c.keyType = chars "int" || c.keyType = chars "bool")

/-- `MIN_LINE_COUNT`. -/
def minLineCount : ℕ := 3

/-- The assignments for a line. A cell that is not there is not defined. -/
def assignLine (cells : List Str) : List CsvAssign → CsvData → Option CsvData
  | [], data => some data
  | a :: assigns, data => cells[a.index]?.bind fun cell =>
      assignLine cells assigns (Function.update data a.field (a.type.convert cell))

/-- One round of the loop of `parseData`. -/
def parseRow (lines : List (List Str)) (i : ℕ) (s : CsvData × CsvObjects) : Option (CsvData × CsvObjects) :=
  lines[i]?.bind fun line => (assignLine line c.assigns s.1).map fun data => (data, s.2.push (data c.keyField) data)

/-- The first `n` rounds of the loop, which begins at `DATA_LINE_START_INDEX`. -/
def parseRows (lines : List (List Str)) (s : CsvData × CsvObjects) : ℕ → Option (CsvData × CsvObjects)
  | 0 => some s
  | n + 1 => (parseRows lines s n).bind (c.parseRow lines (2 + n))

/-- `parseData`, whose variable `data` begins with any value. -/
def parseData (lines : List (List Str)) (data : CsvData) (t : CsvObjects) : Option (Bool × CsvObjects) :=
  if lines.length < minLineCount then some (false, t)
  else (c.parseRows lines (data, t) (c.lineCount - 2)).map fun s => (true, s.2)

/-- `load` of a file with a content. A class that is no program loads nothing. -/
def load (content : Str) (data : CsvData) (t : CsvObjects) : Option (Bool × CsvObjects) :=
  if c.compiles = false then none
  else
    let loaded := JmyCsvParser.load [] content
    if loaded.1 = false then some (false, t) else c.parseData loaded.2 data t

end CsvClass

namespace CsvValue

/-- The text of a value in a cell. -/
def text : CsvValue → Str
  | int v => intText v
  | int64 v => intText v
  | string s => s
  | bool b => if b then [49] else [48]

/-- The bytes that a cell may not have. -/
def PlainText (s : Str) : Prop := s ≠ [] ∧ ∀ c ∈ s, c ≠ 44 ∧ c ≠ 13 ∧ c ≠ 10 ∧ c ≠ 0

/-- A value of a type: a number is in its range, and a string can be written into a cell. -/
def HasType : CsvValue → FieldType → Prop
  | int v, .int => -2 ^ 31 ≤ v ∧ v < 2 ^ 31
  | int64 v, .int64 => -2 ^ 63 ≤ v ∧ v < 2 ^ 63
  | string s, .string => PlainText s
  | bool _, .bool => True
  | _, _ => False

theorem plainText_intText (v : ℤ) : PlainText (intText v) := by
  have hnat : ∀ c ∈ natText v.natAbs, c ≠ 44 ∧ c ≠ 13 ∧ c ≠ 10 ∧ c ≠ 0 := by
    intro c hc
    have hdigit := natText_digit hc
    refine ⟨?_, ?_, ?_, ?_⟩ <;>
    · rintro rfl
      exact absurd hdigit.1 (by decide)
  rcases intText_cases v with ⟨-, htext⟩ | ⟨-, c, cs, htext, hc, -⟩
  · rw [htext]
    refine ⟨List.cons_ne_nil _ _, fun c hc => ?_⟩
    rcases List.mem_cons.1 hc with rfl | hc
    · decide
    · exact hnat c hc
  · rw [htext, ← hc]
    exact ⟨natText_ne_nil _, hnat⟩

theorem HasType.plainText {v : CsvValue} {t : FieldType} (h : v.HasType t) : PlainText v.text := by
  cases v with
  | int v => exact plainText_intText v
  | int64 v => exact plainText_intText v
  | string s =>
      cases t with
      | string => exact h
      | _ => exact h.elim
  | bool b =>
      unfold PlainText
      cases b <;> decide

/-- A value comes back from its text. -/
theorem HasType.convert {v : CsvValue} {t : FieldType} (h : v.HasType t) : t.convert v.text = v := by
  cases v with
  | int v =>
      cases t with
      | int => exact congrArg CsvValue.int (atoi_intText h.1 h.2)
      | _ => exact h.elim
  | int64 v =>
      cases t with
      | int64 => exact congrArg CsvValue.int64 (strtoul_intText h.1 h.2)
      | _ => exact h.elim
  | string s =>
      cases t with
      | string => rfl
      | _ => exact h.elim
  | bool b =>
      cases t with
      | bool => cases b <;> rfl
      | _ => exact h.elim

end CsvValue

/-- A table with a name and a type for each column, and rows of values of these types. -/
structure TypedTable where
  columns : List (Str × FieldType)
  rows : List (List CsvValue)
  columnsPos : columns ≠ []
  names : (columns.map Prod.fst).Nodup
  plain : ∀ column ∈ columns, CsvValue.PlainText column.1
  rowsPos : rows ≠ []
  typed : ∀ row ∈ rows, List.Forall₂ (fun (v : CsvValue) column => v.HasType column.2) row columns

namespace JmyCsvParser

/-- A file whose lines are parsed to rows of one width, and to nothing behind them, is loaded as these rows. -/
theorem load_rows {content : Str} {row : List Str} {rows blank : List (List Str)}
    (hparse : (content.splitOn 10).map parseLine = row :: rows ++ blank) (hblank : ∀ items ∈ blank, items = [])
    (hwidth : ∀ items ∈ row :: rows, items ≠ [] ∧ items.length = row.length) :
    load [] content = (true, row :: rows) := by
  obtain ⟨hrow, hrows⟩ := List.forall_mem_cons.1 hwidth
  obtain ⟨line, rest, hlines⟩ := List.exists_cons_of_ne_nil (List.splitOn_ne_nil 10 content)
  rw [hlines, List.map_cons, List.cons_append, List.cons.injEq] at hparse
  obtain ⟨hline, hrest⟩ := hparse
  have hlength : ∀ line' ∈ rest, parseLine line' ≠ [] → (parseLine line').length = row.length := by
    intro line' hline' hitems
    have hmem : parseLine line' ∈ rows ++ blank := hrest ▸ List.mem_map_of_mem hline'
    exact (List.mem_append.1 hmem).elim (fun h => (hrows _ h).2) fun h => absurd (hblank _ h) hitems
  have hfilter : (rows ++ blank).filter (fun items => decide (items ≠ [])) = rows := by
    rw [List.filter_append, List.filter_eq_self.2 fun items hitems => decide_eq_true (hrows items hitems).1,
      List.filter_eq_nil_iff.2 fun items hitems => by simpa using hblank items hitems, List.append_nil]
  rw [load, hlines, loadLines, if_pos rfl, hline, if_pos (List.length_pos_iff.2 hrow.1), if_neg (not_not.2 rfl),
    loadLines_rest hlength, hrest, hfilter]
  rfl

end JmyCsvParser

namespace TypedTable

variable (t : TypedTable)

/-- The lines of the file: the names, the types and the values. -/
def lines : List (List Str) :=
  t.columns.map Prod.fst :: t.columns.map (fun column => column.2.word) :: t.rows.map fun row => row.map CsvValue.text

def file (lineEnd : JmyCsvParser.LineEnd) (last : Bool) : Str := CsvTable.fileText lineEnd last t.lines

theorem plainText_lines {items : List Str} (h : items ∈ t.lines) {cell : Str} (hcell : cell ∈ items) :
    CsvValue.PlainText cell := by
  rcases List.mem_cons.1 h with rfl | h
  · obtain ⟨column, hcolumn, rfl⟩ := List.mem_map.1 hcell
    exact t.plain column hcolumn
  rcases List.mem_cons.1 h with rfl | h
  · obtain ⟨column, -, rfl⟩ := List.mem_map.1 hcell
    unfold CsvValue.PlainText
    cases column.2 <;> decide
  · obtain ⟨row, hrow, rfl⟩ := List.mem_map.1 h
    obtain ⟨v, hv, rfl⟩ := List.mem_map.1 hcell
    obtain ⟨i, hi, rfl⟩ := List.getElem_of_mem hv
    have htyped := List.forall₂_iff_get.1 (t.typed row hrow)
    exact (htyped.2 i hi (htyped.1 ▸ hi)).plainText

theorem length_of_mem_lines {items : List Str} (h : items ∈ t.lines) : items.length = t.columns.length := by
  rcases List.mem_cons.1 h with rfl | h
  · exact List.length_map _
  rcases List.mem_cons.1 h with rfl | h
  · exact List.length_map _
  · obtain ⟨row, hrow, rfl⟩ := List.mem_map.1 h
    rw [List.length_map]
    exact (t.typed row hrow).length_eq

theorem load_file (lineEnd : JmyCsvParser.LineEnd) (last : Bool) :
    JmyCsvParser.load [] (t.file lineEnd last) = (true, t.lines) := by
  have hne : ∀ items ∈ t.lines, items ≠ [] := by
    intro items hitems
    apply List.ne_nil_of_length_pos
    rw [t.length_of_mem_lines hitems]
    exact List.length_pos_iff.2 t.columnsPos
  have hparse := CsvTable.parse_fileText lineEnd last (List.cons_ne_nil _ _) hne
    (fun items hitems cell hcell => ⟨fun h => ((t.plainText_lines hitems hcell).2 _ h).1 rfl,
      fun h => ((t.plainText_lines hitems hcell).2 _ h).2.1 rfl,
      fun h => ((t.plainText_lines hitems hcell).2 _ h).2.2.1 rfl⟩)
    fun items hitems cell hcell => ⟨(t.plainText_lines hitems hcell).1,
      fun h => ((t.plainText_lines hitems hcell).2 _ h).2.2.2 rfl⟩
  refine JmyCsvParser.load_rows hparse (fun items hitems => ?_) fun items hitems => ⟨hne items hitems, ?_⟩
  · cases last with
    | true => exact List.mem_singleton.1 hitems
    | false => cases hitems
  · rw [t.length_of_mem_lines hitems, t.length_of_mem_lines List.mem_cons_self]

/-- What `parseData` does for a column. -/
def toAssign (p : (Str × FieldType) × ℕ) : CsvAssign := ⟨p.1.1, p.1.2, p.2⟩

/-- The class that is emitted for the table. -/
def emitted (path : Str) : CsvClass where
  name := GenerateSource.fileName path
  fields := t.columns.map fun column => (column.2, column.1)
  keyType := (t.columns.map fun column => column.2.word).headD []
  lineCount := t.rows.length + 2
  assigns := t.columns.zipIdx.map toAssign
  keyField := (t.columns.map Prod.fst).headD []

/-- The table has a class: the file and the columns have names that a program may give, and the type of the first
column, which is the key, is a type of C++. -/
def HasClass (path : Str) : Prop :=
  (isIdentifier (GenerateSource.fileName path) ∧ GenerateSource.fileName path ∉ emittedNames) ∧
    (∀ column ∈ t.columns, isIdentifier column.1) ∧ ∃ column ∈ t.columns.head?, column.2 = .int ∨ column.2 = .bool

theorem compiles_emitted_iff (path : Str) : (t.emitted path).compiles = true ↔ t.HasClass path := by
  obtain ⟨column, columns, hcons⟩ := List.exists_cons_of_ne_nil t.columnsPos
  have hnodup : ((t.emitted path).fields.map Prod.snd).Nodup := by
    rw [emitted, List.map_map]
    exact t.names
  have hkey : (t.emitted path).keyType = column.2.word := by rw [emitted, hcons]; rfl
  have hword : ∀ type : FieldType,
      (type.word = chars "int" ∨ type.word = chars "bool") ↔ type = .int ∨ type = .bool := by
    intro type
    cases type <;> decide
  have hhead : (∃ column ∈ t.columns.head?, column.2 = FieldType.int ∨ column.2 = .bool) ↔
      column.2 = .int ∨ column.2 = .bool := by
    rw [hcons, List.head?_cons]
    simp only [Option.mem_some_iff, exists_eq_left']
  have hfields : (∀ field ∈ (t.emitted path).fields, isIdentifier field.2 = true) ↔
      ∀ column ∈ t.columns, isIdentifier column.1 = true := List.forall_mem_map
  have hname : (t.emitted path).name = GenerateSource.fileName path := rfl
  rw [HasClass, hhead, ← hword, ← hfields, CsvClass.compiles, hkey, hname, decide_eq_true hnodup]
  simp only [Bool.and_eq_true, Bool.or_eq_true, Bool.not_eq_true', List.all_eq_true, decide_eq_true_eq, and_true,
    List.contains_eq_mem, decide_eq_false_iff_not, and_assoc]

theorem writeStruct_columns {columns : List (Str × FieldType)} (h : columns ≠ []) :
    GenerateSource.writeStruct (columns.map Prod.fst) (columns.map fun column => column.2.word) =
      some (columns.map fun column => (column.2, column.1)) := by
  have hpos : ¬((columns.map Prod.fst).length = 0 ∨
      (columns.map Prod.fst).length ≠ (columns.map fun column => column.2.word).length) := by
    simpa using h
  rw [GenerateSource.writeStruct, if_neg hpos]
  clear h hpos
  induction columns with
  | nil => rfl
  | cons column columns ih =>
      rw [List.map_cons, List.map_cons, List.zip_cons_cons, List.mapM_cons, FieldType.ofWord_word, ih]
      rfl

theorem writeAssigns_columns (columns : List (Str × FieldType)) :
    GenerateSource.writeAssigns (columns.map Prod.fst) (columns.map fun column => column.2.word) =
      some (columns.zipIdx.map toAssign) := by
  have hfrom : ∀ k, (((columns.map fun column => column.2.word).zip (columns.map Prod.fst)).zipIdx k).mapM
      (fun p => (FieldType.ofWord p.1.1).map fun type => CsvAssign.mk p.1.2 type p.2) =
        some ((columns.zipIdx k).map toAssign) := by
    induction columns with
    | nil => exact fun _ => rfl
    | cons column columns ih =>
        intro k
        rw [List.map_cons, List.map_cons, List.zip_cons_cons, List.zipIdx_cons, List.mapM_cons,
          FieldType.ofWord_word, ih (k + 1)]
        rfl
  exact hfrom 0

theorem length_lines : t.lines.length = t.rows.length + 2 := by
  rw [lines, List.length_cons, List.length_cons, List.length_map]

theorem init_file {path : Str} (hpath : 47 ∈ path) (lineEnd : JmyCsvParser.LineEnd) (last : Bool) :
    GenerateSource.init path (t.file lineEnd last) = some (some (t.emitted path)) := by
  rw [GenerateSource.init, t.load_file, if_neg Bool.false_ne_true.symm, if_neg (not_not.2 hpath)]
  change some ((GenerateSource.writeStruct (t.columns.map Prod.fst)
    (t.columns.map fun column => column.2.word)).bind _) = _
  rw [writeStruct_columns t.columnsPos, Option.bind_some, writeAssigns_columns, Option.map_some, length_lines]
  rfl

/-- A struct holds the values of a row. -/
def Holds (columns : List (Str × FieldType)) (data : CsvData) (row : List CsvValue) : Prop :=
  List.Forall₂ (fun v column => data column.1 = v) row columns

/-- The assignments from the cell behind some cells on. -/
theorem assignLine_from {row : List CsvValue} {columns : List (Str × FieldType)}
    (htyped : List.Forall₂ (fun (v : CsvValue) column => v.HasType column.2) row columns)
    (hnames : (columns.map Prod.fst).Nodup) (front : List Str) (data : CsvData) :
    ∃ data', CsvClass.assignLine (front ++ row.map CsvValue.text) ((columns.zipIdx front.length).map toAssign) data =
      some data' ∧ Holds columns data' row ∧ ∀ name ∉ columns.map Prod.fst, data' name = data name := by
  induction htyped generalizing front data with
  | nil => exact ⟨data, rfl, .nil, fun _ _ => rfl⟩
  | @cons v column row columns hv _ ih =>
      rw [List.map_cons, List.nodup_cons] at hnames
      obtain ⟨data', hassign, hholds, hframe⟩ := ih hnames.2 (front ++ [v.text]) (Function.update data column.1 v)
      rw [List.append_assoc, List.singleton_append, List.length_append, List.length_singleton] at hassign
      refine ⟨data', ?_, .cons ?_ hholds, fun name hname => ?_⟩
      · have hcell : (front ++ v.text :: row.map CsvValue.text)[front.length]? = some v.text := by
          rw [List.getElem?_append_right (le_refl _), Nat.sub_self, List.getElem?_cons_zero]
        have hconvert : (toAssign (column, front.length)).type.convert v.text = v := hv.convert
        rw [List.map_cons, List.zipIdx_cons, List.map_cons, CsvClass.assignLine, toAssign, hcell, Option.bind_some,
          ← toAssign, hconvert]
        exact hassign
      · rw [hframe _ hnames.1, Function.update_self]
      · rw [List.map_cons, List.mem_cons, not_or] at hname
        rw [hframe _ hname.2, Function.update_of_ne hname.1]

/-- What the class holds when it has read some rows: an object for each row, and for each key the number of the first
row that has it. -/
structure Loaded (columns : List (Str × FieldType)) (rows : List (List CsvValue)) (t : CsvObjects) : Prop where
  vec : t.objs.vec = List.range rows.length
  heap : List.Forall₂ (Holds columns) t.heap rows
  find : ∀ key, t.objs.map.find key = rows.findIdx? fun row => row.head? = some key

namespace Loaded

variable {columns : List (Str × FieldType)} {rows : List (List CsvValue)} {row : List CsvValue} {t : CsvObjects}

theorem empty : Loaded columns [] .empty where
  vec := rfl
  heap := .nil
  find := fun _ => UnorderedMap.find_empty

theorem push (h : Loaded columns rows t) {data : CsvData} {key : CsvValue} (hholds : Holds columns data row)
    (hkey : row.head? = some key) : Loaded columns (rows ++ [row]) (t.push key data) where
  vec := by
    change t.objs.vec ++ [t.heap.length] = _
    rw [h.vec, h.heap.length_eq, List.length_append, List.length_singleton, List.range_succ]
  heap := List.rel_append h.heap (.cons hholds .nil)
  find := by
    intro key'
    change (t.objs.map.emplace key t.heap.length).find key' = _
    rw [List.findIdx?_append, ← h.find key', List.findIdx?_singleton, hkey, h.heap.length_eq]
    by_cases heq : key' = key
    · subst heq
      cases hfind : t.objs.map.find key' with
      | none =>
          rw [UnorderedMap.find_emplace_self hfind]
          simp
      | some p =>
          rw [UnorderedMap.emplace_of_some hfind, hfind]
          rfl
    · rw [UnorderedMap.find_emplace_of_ne heq]
      simp [Ne.symm heq]

theorem getElem? (h : Loaded columns rows t) (i : ℕ) : Option.Rel (Holds columns) t.heap[i]? rows[i]? := by
  obtain ⟨-, hheap, -⟩ := h
  generalize t.heap = heap at hheap
  induction hheap generalizing i with
  | nil => exact .none
  | cons hholds _ ih =>
      cases i with
      | zero => exact .some hholds
      | succ i => exact ih i

end Loaded

/-- What the class answers when it has loaded some rows: the row with an index, and the first row with a key. -/
structure Loads (columns : List (Str × FieldType)) (rows : List (List CsvValue)) (t : CsvObjects) : Prop where
  count : t.count = rows.length
  byIndex : ∀ i, Option.Rel (Holds columns) (t.getByIndex i) rows[i]?
  byKey : ∀ key, Option.Rel (Holds columns) (t.get key) (rows.find? fun row => row.head? = some key)

theorem Loaded.loads {columns : List (Str × FieldType)} {rows : List (List CsvValue)} {t : CsvObjects}
    (h : Loaded columns rows t) : Loads columns rows t where
  count := by
    change t.objs.vec.length = _
    rw [h.vec, List.length_range]
  byIndex := by
    intro i
    change Option.Rel _ (t.objs.vec[i]?.bind fun p => t.heap[p]?) _
    rw [h.vec]
    by_cases hi : i < rows.length
    · rw [List.getElem?_range hi, Option.bind_some]
      exact h.getElem? i
    · rw [List.getElem?_eq_none (not_lt.1 hi), List.getElem?_eq_none (by rw [List.length_range]; exact not_lt.1 hi)]
      exact .none
  byKey := by
    intro key
    change Option.Rel _ ((t.objs.map.find key).bind fun p => t.heap[p]?) _
    rw [h.find key, List.find?_eq_bind_findIdx?_getElem?]
    cases rows.findIdx? fun row => row.head? = some key with
    | none => exact .none
    | some p => exact h.getElem? p

variable {A B : TypedTable}

theorem getElem?_lines (n : ℕ) : B.lines[2 + n]? = B.rows[n]?.map fun row => row.map CsvValue.text := by
  rw [lines, Nat.add_comm, List.getElem?_cons_succ, List.getElem?_cons_succ, List.getElem?_map]

/-- One round reads the next row. -/
theorem parseRow_row (path : Str) (hcolumns : B.columns = A.columns) {n : ℕ} {row : List CsvValue}
    (hrow : B.rows[n]? = some row) {rows : List (List CsvValue)} {s : CsvData × CsvObjects}
    (h : Loaded A.columns rows s.2) :
    ∃ s', (A.emitted path).parseRow B.lines (2 + n) s = some s' ∧ Loaded A.columns (rows ++ [row]) s'.2 := by
  have htyped := hcolumns ▸ B.typed row (List.mem_of_getElem? hrow)
  obtain ⟨data, hassign, hholds, -⟩ := assignLine_from htyped A.names [] s.1
  refine ⟨(data, s.2.push (data (A.emitted path).keyField) data), ?_, h.push hholds ?_⟩
  · rw [CsvClass.parseRow, getElem?_lines, hrow, Option.map_some, Option.bind_some]
    exact congrArg _ hassign
  · obtain ⟨column, columns, hcons⟩ := List.exists_cons_of_ne_nil A.columnsPos
    rw [hcons] at hholds
    cases hholds with
    | cons hv _ =>
        rw [List.head?_cons, emitted, hcons, ← hv]
        rfl

/-- The loop reads a row in each round, up to the last row. -/
theorem parseRows_le (path : Str) (hcolumns : B.columns = A.columns) (data : CsvData) {n : ℕ}
    (hn : n ≤ B.rows.length) :
    ∃ s, (A.emitted path).parseRows B.lines (data, .empty) n = some s ∧ Loaded A.columns (B.rows.take n) s.2 := by
  induction n with
  | zero => exact ⟨_, rfl, .empty⟩
  | succ n ih =>
      obtain ⟨s, hs, hloaded⟩ := ih (Nat.le_of_succ_le hn)
      have hrow : B.rows[n]? = some B.rows[n] := List.getElem?_eq_getElem hn
      obtain ⟨s', hs', hloaded'⟩ := parseRow_row path hcolumns hrow hloaded
      refine ⟨s', ?_, ?_⟩
      · rw [CsvClass.parseRows, hs, Option.bind_some, hs']
      · rwa [List.take_succ_eq_append_getElem hn]

/-- Behind the last row it reads a line that is not there. -/
theorem parseRows_gt (c : CsvClass) (s : CsvData × CsvObjects) {n : ℕ} (hn : B.rows.length < n) :
    c.parseRows B.lines s n = none := by
  induction n with
  | zero => exact absurd hn (Nat.not_lt_zero _)
  | succ n ih =>
      rw [CsvClass.parseRows]
      rcases Nat.lt_succ_iff_lt_or_eq.1 hn with hlt | heq
      · rw [ih hlt, Option.bind_none]
      · refine Option.bind_eq_none_iff.2 fun s' _ => ?_
        rw [CsvClass.parseRow, getElem?_lines, List.getElem?_eq_none heq.le]
        rfl

/-- A table of items with one row. -/
def itemCsv : TypedTable where
  columns := [(chars "id", .int), (chars "max_count", .int)]
  rows := [[.int 10001, .int 10]]
  columnsPos := List.cons_ne_nil _ _
  names := by decide
  plain := by
    unfold CsvValue.PlainText
    decide
  rowsPos := List.cons_ne_nil _ _
  typed := by
    simp [CsvValue.HasType]

theorem itemCsv_hasClass : itemCsv.HasClass (chars "csv/item.csv") := by
  refine (itemCsv.compiles_emitted_iff _).1 ?_
  decide +kernel

/-- The number in a field of type `int`. -/
def asInt : CsvValue → Option ℤ
  | .int v => some v
  | _ => none

/-- What `add_item` takes from `CSV_MGR->get_item_table()`. -/
def itemTable (t : CsvObjects) (typeId : BitVec 32) : Option ℤ :=
  (t.get (.int typeId.toInt)).bind fun data => asInt (data (chars "max_count"))

section ItemTable

variable {columns : List (Str × FieldType)} {rows : List (List CsvValue)} {t : CsvObjects}

/-- It takes the number in the first row of the item. -/
theorem Loads.itemTable (h : Loads columns rows t) {n : ℕ}
    (hcolumn : columns[n]? = some (chars "max_count", .int)) (typeId : BitVec 32) :
    itemTable t typeId = (rows.find? fun row => row.head? = some (.int typeId.toInt)).bind fun row =>
      row[n]?.bind asInt := by
  have hrel := h.byKey (.int typeId.toInt)
  rw [TypedTable.itemTable]
  generalize t.get _ = data at hrel ⊢
  generalize rows.find? _ = row at hrel ⊢
  cases hrel with
  | none => rfl
  | @some data row hholds =>
      obtain ⟨hn, hcell⟩ := List.getElem?_eq_some_iff.1 hcolumn
      have hrow : n < row.length := hholds.length_eq ▸ hn
      have hv := (List.forall₂_iff_get.1 hholds).2 n hrow hn
      rw [List.get_eq_getElem, List.get_eq_getElem, hcell] at hv
      rw [Option.bind_some, Option.bind_some, List.getElem?_eq_getElem hrow, Option.bind_some, hv]

theorem Loads.intCounts (h : Loads columns rows t)
    (htyped : ∀ row ∈ rows, List.Forall₂ (fun (v : CsvValue) column => v.HasType column.2) row columns) {n : ℕ}
    (hcolumn : columns[n]? = some (chars "max_count", .int)) (id : ℤ) :
    (GameConfig.mk id (TypedTable.itemTable t)).IntCounts := by
  intro typeId maxCount hmax
  obtain ⟨row, hfind, hmax⟩ := Option.bind_eq_some_iff.1 ((h.itemTable hcolumn typeId).symm.trans hmax)
  obtain ⟨v, hv, hint⟩ := Option.bind_eq_some_iff.1 hmax
  obtain ⟨hn, rfl⟩ := List.getElem?_eq_some_iff.1 hv
  obtain ⟨hn', hcell⟩ := List.getElem?_eq_some_iff.1 hcolumn
  have htype := (List.forall₂_iff_get.1 (htyped row (List.mem_of_find?_eq_some hfind))).2 n hn hn'
  rw [List.get_eq_getElem, List.get_eq_getElem, hcell] at htype
  generalize row[n] = v at hint htype
  cases v with
  | int v =>
      cases hint
      exact htype
  | _ => cases hint

end ItemTable

end TypedTable

end JmyGame
