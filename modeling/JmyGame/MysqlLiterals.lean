import JmyGame.MysqlStatements

/-! The strings of a call in its statement. A statement has each of them as a literal of its own exactly when they
fit their buffers, the keys need no escaping, and the ring of buffers of an update is not run over. -/

namespace JmyGame

open CArith Sql

/-- What is relied on of `mysql_real_escape_string`: what it leaves has no zero byte and is read back between
quotes. -/
structure Escapes (escape : List Byte → List Byte) : Prop where
  noNul : ∀ s, (0 : Byte) ∉ escape s
  reads : ∀ s post, Ends post → readBody (escape s ++ 39 :: post) = some (s, post)

theorem snprintf_of_length {size : ℕ} {text : List Byte} (h : text.length < size) : snprintf size text = text :=
  List.take_of_length_le (by omega)

/-- The first part of a text that fits stays. -/
theorem snprintf_append {size : ℕ} {text : List Byte} (h : text.length < size) (post : List Byte) :
    ∃ post', snprintf size (text ++ post) = text ++ post' ∧ post' <+: post := by
  refine ⟨post.take (size - 1 - text.length), ?_, List.take_prefix _ _⟩
  rw [snprintf, List.take_append, List.take_of_length_le (by omega)]

theorem length_snprintf_lt {size : ℕ} (hsize : 0 < size) (text : List Byte) : (snprintf size text).length < size := by
  rw [snprintf, List.length_take]
  omega

theorem Ends.of_isPrefix {post post' : List Byte} (h : Ends post) (hpre : post' <+: post) : Ends post' := by
  intro c hc
  obtain ⟨rest, rfl⟩ := hpre
  cases post' with
  | nil => cases hc
  | cons d post' => exact h c hc

theorem ends_nil : Ends [] := nofun

/-- A text behind a literal that starts with a byte without meaning. -/
theorem ends_cons {c : Byte} {post : List Byte} (hc : ¬Special c) : Ends (c :: post) := by
  intro d hd
  obtain rfl := Option.mem_some_iff.1 hd
  exact not_or.1 hc

theorem Ends.append {post post' : List Byte} (h : Ends post) (h' : Ends post') : Ends (post ++ post') := by
  cases post with
  | nil => exact h'
  | cons d post => exact h

theorem cstr_of_noNul {s : List Byte} (h : (0 : Byte) ∉ s) : cstr s = s := by
  induction s with
  | nil => rfl
  | cons c s ih =>
      obtain ⟨hc, hs⟩ := not_or.1 (mt List.mem_cons.2 h)
      rw [cstr, List.takeWhile_cons_of_pos (by simpa using Ne.symm hc)]
      exact congrArg _ (ih hs)

/-- A string in a statement: what stands before it, its literal, and what it needs to fit. -/
structure Place where
  before : List Byte
  string : List Byte
  key : Bool
  fits : Prop

/-- The database reads the string at its place. -/
def Place.Reads (place : Place) (sql : List Byte) : Prop :=
  ∃ rest tail, sql = place.before ++ rest ∧ readLiteral rest = some (place.string, tail)

/-- The text of a string between quotes. -/
def Place.text (escape : List Byte → List Byte) (place : Place) : List Byte :=
  quote (if place.key then place.string else escape place.string)

/-- A literal of a statement that may be cut behind `n` bytes is read when it ends before the cut. -/
theorem reads_take_iff {escape : List Byte → List Byte} (hescape : Escapes escape) {place : Place}
    {sql post : List Byte} (hsql : sql = place.before ++ place.text escape ++ post) (hpost : Ends post) (n : ℕ) :
    place.Reads (sql.take n) ↔
      (place.key = true → Plain place.string) ∧ (place.before ++ place.text escape).length ≤ n := by
  obtain ⟨body, hbody⟩ : ∃ body, body = if place.key then place.string else escape place.string := ⟨_, rfl⟩
  have htext : place.text escape = quote body := by rw [Place.text, hbody]
  have hlit : ∀ {post}, Ends post →
      ((∃ tail, readBody (body ++ 39 :: post) = some (place.string, tail)) ↔
        (place.key = true → Plain place.string)) := by
    intro post hpost
    rw [hbody]
    cases hkey : place.key with
    | true =>
        rw [if_pos rfl, readBody_plain_iff hpost]
        exact ⟨fun h _ => h, fun h => h rfl⟩
    | false =>
        rw [if_neg Bool.false_ne_true]
        exact iff_of_true ⟨post, hescape.reads _ _ hpost⟩ nofun
  rw [htext] at hsql ⊢
  by_cases hlen : (place.before ++ quote body).length ≤ n
  · -- the literal stands in what is kept
    have hkept : sql.take n = place.before ++ (quote body ++ post.take (n - (place.before ++ quote body).length)) := by
      rw [hsql, List.take_append, List.take_of_length_le hlen, List.append_assoc]
    have hread : readLiteral (quote body ++ post.take (n - (place.before ++ quote body).length)) =
        readBody (body ++ 39 :: post.take (n - (place.before ++ quote body).length)) := by
      rw [quote, List.append_assoc, List.cons_append, readLiteral, if_pos rfl]
      rfl
    rw [hkept, ← hlit (Ends.of_isPrefix hpost (List.take_prefix _ _)), ← hread]
    constructor
    · rintro ⟨rest, tail, heq, htail⟩
      exact ⟨⟨tail, (List.append_cancel_left heq) ▸ htail⟩, hlen⟩
    · rintro ⟨⟨tail, htail⟩, -⟩
      exact ⟨_, tail, rfl, htail⟩
  · -- what is kept of it is a text without its last quote
    refine iff_of_false ?_ fun h => hlen h.2
    rintro ⟨rest, tail, heq, htail⟩
    have hpre : rest <+: 39 :: body := by
      have hwhole : place.before ++ rest <+: place.before ++ quote body ++ post := by
        rw [← heq, ← hsql]
        exact List.take_prefix n sql
      rw [List.append_assoc, List.prefix_append_right_inj, quote, List.append_assoc] at hwhole
      refine List.prefix_of_prefix_length_le hwhole (List.prefix_append _ _) ?_
      have hn := congrArg List.length heq
      simp only [List.length_take, List.length_append, quote, List.length_cons, List.length_nil] at hn hlen ⊢
      omega
    cases rest with
    | nil => cases htail
    | cons c text =>
        obtain ⟨rfl, hcut⟩ := List.cons_prefix_cons.1 hpre
        rw [readLiteral, if_pos rfl] at htail
        cases hkey : place.key with
        | true =>
            rw [hkey, if_pos rfl] at hbody
            have hlt := (readBody_length_lt htail).trans_le hcut.length_le
            rw [hbody] at hlt
            exact lt_irrefl _ hlt
        | false =>
            rw [hkey, if_neg Bool.false_ne_true] at hbody
            exact readBody_ne_of_cut (by rw [hbody]; exact hescape.reads _ [] ends_nil) hcut htail

/-- What a list of values is behind some fields: its text, and the number of fields behind it that are not changed. -/
abbrev ListState := Option (List Byte × ℕ)

/-- The head that the list has when a text is joined. One unchanged field moves the ring on by one buffer; behind
two of them, up to a multiple of three, the text has been printed over the list. -/
def joinHead : ListState → List Byte → Option (List Byte)
  | none, _ => none
  | some (head, gap), text => if gap % 3 = 0 then some head else some text

/-- The list would be printed into the buffer of its own head. -/
def Overlaps : ListState → Prop
  | none => False
  | some (_, gap) => gap % 3 = 1

instance (st : ListState) : Decidable (Overlaps st) := by
  unfold Overlaps
  cases st <;> infer_instance

/-- A field of a list: one that is not changed, a string, or another value, with what is printed before it. -/
inductive ListField where
  | unchanged
  | string (front s : List Byte)
  | other (front text : List Byte)

namespace ListField

variable (escape : List Byte → List Byte)

/-- The text of a field. A string whose escaped text is out of its buffer has no defined text. -/
def text : ListField → Option (Option (List Byte))
  | unchanged => none
  | string front s => some (if (escape s).length < bufSize
      then some (snprintf bufSize (front ++ snprintf bufSize (quote (escape s)))) else none)
  | other front text => some (some (snprintf bufSize (front ++ snprintf bufSize text)))

def changed : ListField → Bool
  | unchanged => false
  | _ => true

/-- What is printed before the value of a field that is changed. -/
def front : ListField → Option (List Byte)
  | unchanged => none
  | string front _ => some front
  | other front _ => some front

end ListField

/-- The list of the fields. -/
def setList (escape : List Byte → List Byte) : ListState → List ListField → Option ListState
  | st, [] => some st
  | st, field :: fields =>
    match field.text escape with
    | none => setList escape (st.map fun p => (p.1, p.2 + 1)) fields
    | some text => text.bind fun text =>
      if Overlaps st then none
      else setList escape (some (snprintf bufSize (listed (joinHead st text) text), 0)) fields

/-- Behind `gap` unchanged fields, every changed field comes behind a multiple of three. -/
def InStep : ℕ → List Bool → Prop
  | _, [] => True
  | gap, false :: changed => InStep (gap + 1) changed
  | gap, true :: changed => gap % 3 = 0 ∧ InStep 0 changed

/-- Behind a list with `gap` unchanged fields, no changed field comes behind one more than a multiple of three. -/
def NoOverlap : Option ℕ → List Bool → Prop
  | _, [] => True
  | gap, false :: changed => NoOverlap (gap.map (· + 1)) changed
  | gap, true :: changed => (∀ n ∈ gap, n % 3 ≠ 1) ∧ NoOverlap (some 0) changed

variable {escape : List Byte → List Byte} {st st' : ListState} {fields : List ListField}

theorem setList_joined {field : ListField} {text : List Byte} (htext : field.text escape = some (some text)) :
    setList escape st (field :: fields) = if Overlaps st then none
      else setList escape (some (snprintf bufSize (listed (joinHead st text) text), 0)) fields := by
  rw [setList, htext]
  rfl

/-- What it takes to join a changed field. -/
theorem setList_changed {field : ListField} (hchanged : field.changed = true)
    (hlist : setList escape st (field :: fields) = some st') : ∃ text, field.text escape = some (some text) ∧
      ¬Overlaps st ∧
      setList escape (some (snprintf bufSize (listed (joinHead st text) text), 0)) fields = some st' := by
  have hsome : ∀ text, field.text escape = some text → ∃ text', text = some text' ∧ ¬Overlaps st ∧
      setList escape (some (snprintf bufSize (listed (joinHead st text') text'), 0)) fields = some st' := by
    intro text htext
    rw [setList, htext] at hlist
    obtain ⟨text', rfl, hrest⟩ := Option.bind_eq_some_iff.1 hlist
    obtain ⟨hover, hrest⟩ := Option.ite_none_left_eq_some.1 hrest
    exact ⟨text', rfl, hover, hrest⟩
  cases field with
  | unchanged => cases hchanged
  | string front s =>
      obtain ⟨text, htext, hrest⟩ := hsome _ rfl
      exact ⟨text, congrArg some htext, hrest⟩
  | other front text =>
      obtain ⟨text, htext, hrest⟩ := hsome _ rfl
      exact ⟨text, congrArg some htext, hrest⟩

theorem setList_append (fields' : List ListField) : setList escape st (fields ++ fields') =
    (setList escape st fields).bind fun st' => setList escape st' fields' := by
  induction fields generalizing st with
  | nil => rfl
  | cons field fields ih =>
      rw [List.cons_append, setList, setList]
      cases field.text escape with
      | none => exact ih
      | some text =>
          cases text with
          | none => rfl
          | some text =>
              simp only [Option.bind_some]
              split_ifs
              · rfl
              · exact ih

/-- The list of the fields stays a list. -/
theorem setList_some {p : List Byte × ℕ} (hlist : setList escape (some p) fields = some st') :
    ∃ p', st' = some p' := by
  induction fields generalizing p with
  | nil => exact ⟨p, (Option.some.inj hlist).symm⟩
  | cons field fields ih =>
      rcases hchanged : field.changed with _ | _
      · cases field with
        | unchanged => exact ih hlist
        | string front s => cases hchanged
        | other front text => cases hchanged
      · obtain ⟨text, -, -, hrest⟩ := setList_changed hchanged hlist
        exact ih hrest

/-- A changed field makes a list. -/
theorem setList_of_changed {field : ListField} (hmem : field ∈ fields)
    (hchanged : field.changed = true) (hlist : setList escape st fields = some st') : ∃ p, st' = some p := by
  obtain ⟨fields₁, fields₂, rfl⟩ := List.mem_iff_append.1 hmem
  rw [setList_append] at hlist
  obtain ⟨st₁, -, hlist⟩ := Option.bind_eq_some_iff.1 hlist
  obtain ⟨text, -, -, hrest⟩ := setList_changed hchanged hlist
  exact setList_some hrest

theorem bufSize_pos : 0 < bufSize := by decide

theorem listed_append (head : Option (List Byte)) (front text : List Byte) :
    listed head (front ++ text) = listed head front ++ text := by
  cases head with
  | none => rfl
  | some head => rw [listed, listed, List.append_assoc (head ++ [44, 32])]

/-- A list that is kept in step is continued. -/
theorem setList_continues {head : List Byte} {gap : ℕ} (hlen : head.length < bufSize)
    (hstep : InStep gap (fields.map ListField.changed)) (hlist : setList escape (some (head, gap)) fields = some st') :
    ∃ post gap', st' = some (head ++ post, gap') ∧ Ends post := by
  induction fields generalizing head gap with
  | nil =>
      obtain rfl := Option.some.inj hlist
      exact ⟨[], gap, by rw [List.append_nil], ends_nil⟩
  | cons field fields ih =>
      rcases hchanged : field.changed with _ | _
      · cases field with
        | unchanged => exact ih hlen hstep hlist
        | string front s => cases hchanged
        | other front text => cases hchanged
      · rw [List.map_cons, hchanged] at hstep
        obtain ⟨hgap, hstep⟩ := hstep
        obtain ⟨text, -, -, hrest⟩ := setList_changed hchanged hlist
        rw [joinHead, if_pos hgap, listed, List.append_assoc] at hrest
        obtain ⟨post, hpost, hpre⟩ := snprintf_append hlen ([44, 32] ++ text)
        have hlen' := length_snprintf_lt bufSize_pos (head ++ ([44, 32] ++ text))
        rw [hpost] at hrest hlen'
        obtain ⟨post', gap', rfl, hends⟩ := ih hlen' hstep hrest
        refine ⟨post ++ post', gap', by rw [List.append_assoc], ?_⟩
        exact Ends.append (Ends.of_isPrefix (ends_cons (by unfold Special; decide)) hpre) hends

/-- The text of a string with what is printed before it. -/
def stringText (escape : List Byte → List Byte) (front s : List Byte) : List Byte := front ++ quote (escape s)

/-- What stands in the list before the literal of a string. -/
def listBefore (escape : List Byte → List Byte) (st : ListState) (front s : List Byte) : List Byte :=
  listed (joinHead st (stringText escape front s)) front

/-- Where the literal of a string of a list stands, behind the front of the statement. -/
def valuePlace (escape : List Byte → List Byte) (lead : List Byte) (st : ListState) (front s : List Byte) : Place where
  before := lead ++ listBefore escape st front s
  string := s
  key := false
  fits := (listBefore escape st front s ++ quote (escape s)).length < bufSize ∧
    (lead ++ listBefore escape st front s ++ quote (escape s)).length < bigBufSize

theorem length_quote (s : List Byte) : (quote s).length = s.length + 2 := by
  rw [quote, List.length_append, List.length_cons, List.length_singleton]

/-- A string that fits has its text. -/
theorem text_of_fits {front s : List Byte} (hfits : (stringText escape front s).length < bufSize) :
    (ListField.string front s).text escape = some (some (stringText escape front s)) := by
  have hlen := hfits
  rw [stringText, List.length_append, length_quote] at hlen
  have hquote : snprintf bufSize (quote (escape s)) = quote (escape s) :=
    snprintf_of_length (by rw [length_quote]; omega)
  rw [ListField.text, if_pos (by omega), hquote]
  exact congrArg (fun text => some (some text)) (snprintf_of_length hfits)

/-- The list up to the end of a string. -/
theorem listed_stringText (front s : List Byte) :
    listed (joinHead st (stringText escape front s)) (stringText escape front s) =
      listBefore escape st front s ++ quote (escape s) := listed_append _ front _

theorem length_le_listed (head : Option (List Byte)) (text : List Byte) : text.length ≤ (listed head text).length := by
  cases head with
  | none => exact le_refl text.length
  | some head =>
      rw [listed, List.length_append]
      omega

/-- A string that fits is at its place as long as the list is kept in step behind it. -/
theorem setList_place {front s : List Byte}
    (hfits : (listBefore escape st front s ++ quote (escape s)).length < bufSize)
    (hstep : InStep 0 (fields.map ListField.changed))
    (hlist : setList escape st (.string front s :: fields) = some st') :
    ∃ post gap, st' = some (listBefore escape st front s ++ quote (escape s) ++ post, gap) ∧ Ends post := by
  obtain ⟨text, htext, -, hrest⟩ := setList_changed rfl hlist
  rw [← listed_stringText] at hfits
  rw [text_of_fits ((length_le_listed _ _).trans_lt hfits)] at htext
  obtain rfl := Option.some.inj (Option.some.inj htext)
  rw [snprintf_of_length hfits] at hrest
  rw [← listed_stringText]
  exact setList_continues hfits hstep hrest

/-- The database reads a string that fits and ends before the statement is cut. -/
theorem reads_valuePlace_iff (hescape : Escapes escape) {lead front s list tail sql : List Byte} {gap : ℕ}
    (hfits : (valuePlace escape lead st front s).fits) (hstep : InStep 0 (fields.map ListField.changed))
    (hlist : setList escape st (.string front s :: fields) = some (some (list, gap))) (htail : Ends tail)
    (hsql : sql = snprintf bigBufSize (lead ++ list ++ tail)) (n : ℕ) :
    (valuePlace escape lead st front s).Reads (sql.take n) ↔
      ((valuePlace escape lead st front s).before ++ (valuePlace escape lead st front s).text escape).length ≤ n := by
  obtain ⟨post, gap', heq, hpost⟩ := setList_place hfits.1 hstep hlist
  obtain ⟨rfl, rfl⟩ := Prod.mk.inj (Option.some.inj heq)
  obtain ⟨post', hpost', hpre⟩ := snprintf_append hfits.2 (post ++ tail)
  refine (reads_take_iff hescape ?_ (Ends.of_isPrefix (Ends.append hpost htail) hpre) n).trans
    ⟨fun h => h.2, fun h => ⟨nofun, h⟩⟩
  have htext : (valuePlace escape lead st front s).text escape = quote (escape s) := rfl
  have hbefore : (valuePlace escape lead st front s).before = lead ++ listBefore escape st front s := rfl
  rw [hsql, htext, hbefore, ← hpost']
  simp only [List.append_assoc]

/-- What is printed before the values of the fields that are changed. -/
def fronts (fields : List ListField) : List (List Byte) := fields.filterMap ListField.front

theorem mem_fronts_cons {front : List Byte} (field : ListField) (h : front ∈ fronts fields) :
    front ∈ fronts (field :: fields) := by
  obtain ⟨field', hmem, hfront⟩ := List.mem_filterMap.1 h
  exact List.mem_filterMap.2 ⟨field', List.mem_cons_of_mem field hmem, hfront⟩

theorem front_mem_fronts {field : ListField} {front : List Byte} (h : field.front = some front) :
    front ∈ fronts (field :: fields) :=
  List.mem_filterMap.2 ⟨field, List.mem_cons_self, h⟩

theorem prefix_snprintf {size : ℕ} {front text : List Byte} (hlen : front.length < size) (h : front <+: text) :
    front <+: snprintf size text := by
  obtain ⟨post, rfl⟩ := h
  obtain ⟨post', hpost, -⟩ := snprintf_append hlen post
  rw [hpost]
  exact List.prefix_append front post'

/-- The text of a changed field starts with its front. -/
theorem exists_front {field : ListField} {text : List Byte} (htext : field.text escape = some (some text)) :
    ∃ front, field.front = some front ∧ (front.length < bufSize → front <+: text) := by
  cases field with
  | unchanged => cases htext
  | string front s =>
      obtain ⟨-, htext⟩ := Option.ite_none_right_eq_some.1 (Option.some.inj htext)
      obtain rfl := Option.some.inj htext
      exact ⟨front, rfl, fun hlen => prefix_snprintf hlen (List.prefix_append _ _)⟩
  | other front text' =>
      obtain rfl := Option.some.inj (Option.some.inj htext)
      exact ⟨front, rfl, fun hlen => prefix_snprintf hlen (List.prefix_append _ _)⟩

/-- A joined list starts as the list or the text does. -/
theorem exists_prefix_listed {F : List Byte → Prop} {front text text' : List Byte}
    (hst : ∀ p ∈ st, ∃ front, F front ∧ front <+: p.1) (hfront : F front) (htext : front <+: text)
    (htext' : front <+: text') : ∃ front, F front ∧ front <+: listed (joinHead st text) text' := by
  cases st with
  | none => exact ⟨front, hfront, htext'⟩
  | some p =>
      obtain ⟨head, gap⟩ := p
      rw [joinHead]
      split_ifs
      · obtain ⟨first, hfirst, hhead⟩ := hst _ rfl
        refine ⟨first, hfirst, ?_⟩
        rw [listed, List.append_assoc]
        exact hhead.trans (List.prefix_append head _)
      · refine ⟨front, hfront, ?_⟩
        rw [listed, List.append_assoc]
        exact htext.trans (List.prefix_append text _)

/-- A list starts with a front. -/
theorem setList_front {F : List Byte → Prop} (hlen : ∀ front, F front → front.length < bufSize)
    (hst : ∀ p ∈ st, ∃ front, F front ∧ front <+: p.1) (hfields : ∀ front ∈ fronts fields, F front)
    (hlist : setList escape st fields = some st') : ∀ p ∈ st', ∃ front, F front ∧ front <+: p.1 := by
  induction fields generalizing st with
  | nil =>
      obtain rfl := Option.some.inj hlist
      exact hst
  | cons field fields ih =>
      rcases hchanged : field.changed with _ | _
      · cases field with
        | unchanged =>
            refine ih ?_ hfields hlist
            intro p hp
            obtain ⟨q, hq, rfl⟩ := Option.map_eq_some_iff.1 hp
            exact hst q hq
        | string front s => cases hchanged
        | other front text => cases hchanged
      · obtain ⟨text, htext, -, hrest⟩ := setList_changed hchanged hlist
        obtain ⟨front, hfront, hpre⟩ := exists_front htext
        have hF : F front := hfields front (front_mem_fronts hfront)
        refine ih ?_ (fun f hf => hfields f (mem_fronts_cons field hf)) hrest
        intro p hp
        obtain rfl := Option.mem_some_iff.1 hp
        obtain ⟨first, hfirst, hlisted⟩ := exists_prefix_listed hst hF (hpre (hlen front hF)) (hpre (hlen front hF))
        exact ⟨first, hfirst, prefix_snprintf (hlen first hfirst) hlisted⟩

/-- A list that falls out of step starts with a field behind it: what was in it is lost. -/
theorem setList_lost {head : List Byte} {gap : ℕ} (hlen : ∀ front ∈ fronts fields, front.length < bufSize)
    (hstep : ¬InStep gap (fields.map ListField.changed))
    (hlist : setList escape (some (head, gap)) fields = some st') :
    ∀ p ∈ st', ∃ front ∈ fronts fields, front <+: p.1 := by
  induction fields generalizing head gap with
  | nil => exact absurd trivial hstep
  | cons field fields ih =>
      have hlen' : ∀ front ∈ fronts fields, front.length < bufSize :=
        fun front hfront => hlen front (mem_fronts_cons field hfront)
      have hcons : (∀ p ∈ st', ∃ front ∈ fronts fields, front <+: p.1) →
          ∀ p ∈ st', ∃ front ∈ fronts (field :: fields), front <+: p.1 := by
        intro hfields p hp
        obtain ⟨front, hfront, hpre⟩ := hfields p hp
        exact ⟨front, mem_fronts_cons field hfront, hpre⟩
      rcases hchanged : field.changed with _ | _
      · cases field with
        | unchanged => exact hcons (ih hlen' hstep hlist)
        | string front s => cases hchanged
        | other front text => cases hchanged
      · rw [List.map_cons, hchanged] at hstep
        obtain ⟨text, htext, -, hrest⟩ := setList_changed hchanged hlist
        by_cases hgap : gap % 3 = 0
        · exact hcons (ih hlen' (fun h => hstep ⟨hgap, h⟩) hrest)
        · -- the text has been printed over the list
          obtain ⟨front, hfront, hpre⟩ := exists_front htext
          have hmem : front ∈ fronts (field :: fields) := front_mem_fronts hfront
          refine setList_front hlen ?_ (fun f hf => mem_fronts_cons field hf) hrest
          intro p hp
          obtain rfl := Option.mem_some_iff.1 hp
          refine ⟨front, hmem, prefix_snprintf (hlen front hmem) ?_⟩
          rw [joinHead, if_neg hgap, listed, List.append_assoc]
          exact (hpre (hlen front hmem)).trans (List.prefix_append text _)

/-- A front is a name with an equals sign. -/
def IsFront (front : List Byte) : Prop := ∃ name, front = name ++ [61] ∧ 61 ∉ name ∧ name.length ≤ 256

theorem IsFront.length_lt {front : List Byte} (h : IsFront front) : front.length < bufSize := by
  obtain ⟨name, rfl, -, hlen⟩ := h
  have hsize : 257 < bufSize := by decide
  rw [List.length_append, List.length_singleton]
  omega

/-- A text starts with one front only. -/
theorem IsFront.eq_of_isPrefix {front front' text : List Byte} (h : IsFront front) (h' : IsFront front')
    (hpre : front <+: text) (hpre' : front' <+: text) : front = front' := by
  have htake : ∀ {front : List Byte}, IsFront front → front <+: text →
      front = text.takeWhile (fun c => c ≠ 61) ++ [61] := by
    rintro _ ⟨name, rfl, hname, -⟩ ⟨post, rfl⟩
    have hall : ∀ c ∈ name, decide (c ≠ 61) = true := by
      intro c hc
      exact decide_eq_true fun heq => hname (heq ▸ hc)
    rw [List.append_assoc, List.takeWhile_append_of_pos hall, List.singleton_append,
      List.takeWhile_cons_of_neg (by decide), List.append_nil]
  rw [htake h hpre, ← htake h' hpre']

/-- The database does not read a string behind which the list falls out of step. -/
theorem not_reads_valuePlace {fields₁ : List ListField} {lead front s list tail sql : List Byte} {gap : ℕ}
    (hfronts : ∀ f ∈ fronts (fields₁ ++ .string front s :: fields), IsFront f)
    (hnodup : (fronts (fields₁ ++ .string front s :: fields)).Nodup) (hst : setList escape none fields₁ = some st)
    (hlist : setList escape st (.string front s :: fields) = some (some (list, gap)))
    (hstep : ¬InStep 0 (fields.map ListField.changed)) (hsql : sql <+: lead ++ list ++ tail) :
    ¬(valuePlace escape lead st front s).Reads sql := by
  rintro ⟨rest, tail', heq, -⟩
  have hsplit : fronts (fields₁ ++ .string front s :: fields) = (fronts fields₁ ++ [front]) ++ fronts fields := by
    have hcons : fronts (.string front s :: fields) = [front] ++ fronts fields := rfl
    rw [List.append_assoc, ← hcons, fronts, List.filterMap_append]
    rfl
  rw [hsplit] at hfronts hnodup
  -- what the list starts with before the string
  have hbefore : ∃ f, f ∈ fronts fields₁ ++ [front] ∧ f <+: listBefore escape st front s := by
    refine exists_prefix_listed ?_ List.mem_append_cons_self (List.prefix_append front _) (List.prefix_refl front)
    refine setList_front (fun f hf => (hfronts f (List.mem_append_left _ hf)).length_lt) ?_ ?_ hst
    · intro p hp
      cases hp
    · exact fun f hf => List.mem_append_left _ hf
  -- and in the end
  have hlost : ∃ f ∈ fronts fields, f <+: list := by
    obtain ⟨text, -, -, hrest⟩ := setList_changed rfl hlist
    exact setList_lost (fun f hf => (hfronts f (List.mem_append_right _ hf)).length_lt) hstep hrest _ rfl
  obtain ⟨f, hf, hpre⟩ := hbefore
  obtain ⟨f', hf', hpre'⟩ := hlost
  have hsame : f <+: list ++ tail := by
    refine (List.prefix_append_right_inj lead).1 ?_
    have hsql_pre : lead ++ listBefore escape st front s <+: sql := heq ▸ List.prefix_append _ rest
    have hall : sql <+: lead ++ (list ++ tail) := by
      rw [← List.append_assoc]
      exact hsql
    exact ((List.prefix_append_right_inj lead).2 hpre).trans (hsql_pre.trans hall)
  have hff' := (hfronts f (List.mem_append_left _ hf)).eq_of_isPrefix (hfronts f' (List.mem_append_right _ hf')) hsame
    (hpre'.trans (List.prefix_append list tail))
  exact (List.nodup_append.1 hnodup).2.2 f hf f' hf' hff'

/-- A list that is defined is never printed into its own head. -/
theorem noOverlap_of_setList (hlist : setList escape st fields = some st') :
    NoOverlap (st.map Prod.snd) (fields.map ListField.changed) := by
  induction fields generalizing st with
  | nil => trivial
  | cons field fields ih =>
      rcases hchanged : field.changed with _ | _
      · cases field with
        | unchanged =>
            have hrest := ih hlist
            rw [Option.map_map] at hrest
            rw [List.map_cons, hchanged, NoOverlap, Option.map_map]
            exact hrest
        | string front s => cases hchanged
        | other front text => cases hchanged
      · obtain ⟨text, -, hover, hrest⟩ := setList_changed hchanged hlist
        rw [List.map_cons, hchanged]
        refine ⟨?_, ih hrest⟩
        intro n hn
        obtain ⟨p, rfl, rfl⟩ := Option.map_eq_some_iff.1 hn
        exact hover

/-- A list that is never printed into its own head is defined as long as the strings have texts. -/
theorem exists_setList (hover : NoOverlap (st.map Prod.snd) (fields.map ListField.changed))
    (hstrings : ∀ fields₁ front s fields₂ st₁, fields = fields₁ ++ .string front s :: fields₂ →
      setList escape st fields₁ = some st₁ → (escape s).length < bufSize) :
    ∃ st', setList escape st fields = some st' := by
  induction fields generalizing st with
  | nil => exact ⟨st, rfl⟩
  | cons field fields ih =>
      have hjoin : ∀ {text}, field.text escape = some (some text) → field.changed = true →
          ∃ st', setList escape st (field :: fields) = some st' := by
        intro text htext hchanged
        rw [List.map_cons, hchanged] at hover
        have hfree : ¬Overlaps st := by
          intro h
          cases st with
          | none => exact h
          | some p => exact hover.1 p.2 rfl h
        rw [setList_joined htext, if_neg hfree]
        refine ih hover.2 ?_
        intro fields₁ front s fields₂ st₁ heq hst₁
        refine hstrings (field :: fields₁) front s fields₂ st₁ (by rw [heq]; rfl) ?_
        rw [setList_joined htext, if_neg hfree, hst₁]
      cases field with
      | unchanged =>
          refine ih ?_ fun fields₁ front s fields₂ st₁ heq hst₁ =>
            hstrings (.unchanged :: fields₁) front s fields₂ st₁ (by rw [heq]; rfl) hst₁
          rw [Option.map_map]
          rw [List.map_cons, ListField.changed, NoOverlap, Option.map_map] at hover
          exact hover
      | string front s => exact hjoin (congrArg some (if_pos (hstrings [] front s fields st rfl rfl))) rfl
      | other front text => exact hjoin rfl rfl

end JmyGame
