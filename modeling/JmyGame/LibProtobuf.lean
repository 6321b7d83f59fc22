import Mathlib.Data.List.Nodup
import JmyGame.LibCArith

/-! The protocol buffers wire format, as far as messages of integers, byte strings and embedded
messages need it: a message is a sequence of tagged fields, integers are written seven bits a byte, and
a field with its default value is left out. -/

namespace Protobuf

open CArith

/-- A variable length integer of at most `n` bytes. -/
def encodeVarint : ℕ → ℕ → List Byte
  | 0, _ => []
  | n + 1, v => if v < 128 then [BitVec.ofNat 8 v]
      else BitVec.ofNat 8 (v % 128 + 128) :: encodeVarint n (v / 128)

def decodeVarint : ℕ → List Byte → Option (ℕ × List Byte)
  | 0, _ => none
  | _ + 1, [] => none
  | n + 1, b :: bs => if b.toNat < 128 then some (b.toNat, bs)
      else (decodeVarint n bs).map fun r => (b.toNat - 128 + 128 * r.1, r.2)

/-- What a field holds. -/
inductive Field where
  | varint (v : ℕ)
  | bytes (bs : List Byte)
  | fixed (bs : List Byte)
  deriving DecidableEq, Repr

/-- The first `n` bytes and the rest, when there are so many. -/
def takeBytes (n : ℕ) (bs : List Byte) : Option (List Byte × List Byte) :=
  if n ≤ bs.length then some (bs.take n, bs.drop n) else none

/-- One field with its number. Groups are not read. -/
def decodeField (bs : List Byte) : Option ((ℕ × Field) × List Byte) :=
  (decodeVarint 10 bs).bind fun tag =>
    if tag.1 / 8 = 0 then none
    else match tag.1 % 8 with
    | 0 => (decodeVarint 10 tag.2).map fun v => ((tag.1 / 8, .varint (v.1 % 2 ^ 64)), v.2)
    | 1 => (takeBytes 8 tag.2).map fun v => ((tag.1 / 8, .fixed v.1), v.2)
    | 2 => (decodeVarint 10 tag.2).bind fun len =>
        (takeBytes len.1 len.2).map fun v => ((tag.1 / 8, .bytes v.1), v.2)
    | 5 => (takeBytes 4 tag.2).map fun v => ((tag.1 / 8, .fixed v.1), v.2)
    | _ => none

/-- The fields of a message; at most `n` of them. -/
def decodeFields : ℕ → List Byte → Option (List (ℕ × Field))
  | _, [] => some []
  | 0, _ :: _ => none
  | n + 1, bs => (decodeField bs).bind fun r => (decodeFields n r.2).map (r.1 :: ·)

/-- The fields of a message. Every field takes at least one byte. -/
def decode (bs : List Byte) : Option (List (ℕ × Field)) := decodeFields bs.length bs

/-- The integer of a field: the last one that was written, else 0. -/
def uintOf (fs : List (ℕ × Field)) (n : ℕ) : ℕ :=
  fs.foldl (fun v f => match f.2 with
    | .varint w => if f.1 = n then w else v
    | _ => v) 0

/-- The string of a field: the last one that was written, else the empty one. -/
def bytesOf (fs : List (ℕ × Field)) (n : ℕ) : List Byte :=
  fs.foldl (fun v f => match f.2 with
    | .bytes w => if f.1 = n then w else v
    | _ => v) []

/-- The bytes of an embedded message. What is written twice is merged, which is to read one after the
other. -/
def messageOf (fs : List (ℕ × Field)) (n : ℕ) : List Byte :=
  fs.foldl (fun v f => match f.2 with
    | .bytes w => if f.1 = n then v ++ w else v
    | _ => v) []

/-- The messages of a repeated field, in the order they were written. -/
def messagesOf (fs : List (ℕ × Field)) (n : ℕ) : List (List Byte) :=
  fs.filterMap fun f => match f.2 with
    | .bytes w => if f.1 = n then some w else none
    | _ => none

/-- An `int32` is read from the low 32 bits. -/
def int32Of (fs : List (ℕ × Field)) (n : ℕ) : ℤ := (BitVec.ofNat 32 (uintOf fs n)).toInt

def encodeUint (n v : ℕ) : List Byte :=
  if v = 0 then [] else encodeVarint 10 (8 * n) ++ encodeVarint 10 v

def boolOf (fs : List (ℕ × Field)) (n : ℕ) : Bool := decide (uintOf fs n ≠ 0)

def encodeBool (n : ℕ) (b : Bool) : List Byte := encodeUint n b.toNat

/-- An `int32` is written as a 64-bit integer. -/
def encodeInt32 (n : ℕ) (v : ℤ) : List Byte := encodeUint n (BitVec.ofInt 64 v).toNat

def encodeMessage (n : ℕ) (bs : List Byte) : List Byte :=
  encodeVarint 10 (8 * n + 2) ++ encodeVarint 10 bs.length ++ bs

def encodeBytes (n : ℕ) (bs : List Byte) : List Byte := if bs = [] then [] else encodeMessage n bs

/-- The number of bytes that a first byte of a UTF-8 character announces behind it. -/
def utf8Tail (b : Byte) : Option ℕ :=
  if b.toNat < 0x80 then some 0
  else if 0xc2 ≤ b.toNat ∧ b.toNat < 0xe0 then some 1
  else if 0xe0 ≤ b.toNat ∧ b.toNat < 0xf0 then some 2
  else if 0xf0 ≤ b.toNat ∧ b.toNat < 0xf5 then some 3
  else none

/-- The byte behind the first one is in the range that excludes overlong forms, surrogates and values
above the last character. -/
def utf8Second (b c : Byte) : Bool :=
  (if b.toNat = 0xe0 then 0xa0 else if b.toNat = 0xf0 then 0x90 else 0x80) ≤ c.toNat &&
    c.toNat ≤ (if b.toNat = 0xed then 0x9f else if b.toNat = 0xf4 then 0x8f else 0xbf)

/-- Well-formed UTF-8. A `string` field is read only if it is. -/
def validUtf8 : ℕ → List Byte → Bool
  | _, [] => true
  | 0, _ :: _ => false
  | n + 1, b :: bs => match utf8Tail b with
    | none => false
    | some k => decide (k ≤ bs.length) && (match bs with
        | [] => true
        | c :: _ => k == 0 || utf8Second b c) &&
      (bs.take k).all (fun c => 0x80 ≤ c.toNat && c.toNat < 0xc0) && validUtf8 n (bs.drop k)

theorem decodeVarint_encodeVarint {n v : ℕ} (h : v < 128 ^ (n + 1)) (rest : List Byte) :
    decodeVarint (n + 1) (encodeVarint (n + 1) v ++ rest) = some (v, rest) := by
  induction n generalizing v with
  | zero =>
      have hbyte : (BitVec.ofNat 8 v).toNat = v := by
        rw [BitVec.toNat_ofNat]
        omega
      rw [encodeVarint, if_pos (by omega), List.singleton_append, decodeVarint, hbyte, if_pos (by omega)]
  | succ n ih =>
      rw [encodeVarint]
      split_ifs with hsmall
      · have hbyte : (BitVec.ofNat 8 v).toNat = v := by
          rw [BitVec.toNat_ofNat]
          omega
        rw [List.singleton_append, decodeVarint, hbyte, if_pos hsmall]
      · have hbyte : (BitVec.ofNat 8 (v % 128 + 128)).toNat = v % 128 + 128 := by
          rw [BitVec.toNat_ofNat]
          omega
        have hrest : v / 128 < 128 ^ (n + 1) := by
          rw [pow_succ] at h
          omega
        rw [List.cons_append, decodeVarint, hbyte, if_neg (by omega), ih hrest, Option.map_some]
        congr 2
        omega

theorem encodeVarint_ne_nil {n v : ℕ} : encodeVarint (n + 1) v ≠ [] := by
  rw [encodeVarint]
  split_ifs
  · exact List.cons_ne_nil _ _
  · exact List.cons_ne_nil _ _

theorem decodeField_uint {n v : ℕ} (hn : 0 < n) (hn' : n < 2 ^ 29) (hv : v < 2 ^ 64)
    (rest : List Byte) :
    decodeField (encodeVarint 10 (8 * n) ++ encodeVarint 10 v ++ rest) =
      some ((n, .varint v), rest) := by
  have htag : 8 * n < 128 ^ 10 := by omega
  have hval : v < 128 ^ 10 := by omega
  have hdiv : 8 * n / 8 = n := by omega
  have hmod : 8 * n % 8 = 0 := by omega
  rw [decodeField, List.append_assoc, decodeVarint_encodeVarint htag, Option.bind_some]
  simp only [hdiv, hmod, decodeVarint_encodeVarint hval, Option.map_some, if_neg (by omega : ¬n = 0),
    Nat.mod_eq_of_lt hv]

/-- More fields are read than there are. -/
theorem decodeFields_mono {k k' : ℕ} {bs : List Byte} {fs : List (ℕ × Field)} (hk : k ≤ k')
    (h : decodeFields k bs = some fs) : decodeFields k' bs = some fs := by
  induction k generalizing k' bs fs with
  | zero =>
      cases bs with
      | nil =>
          cases k' <;> exact h
      | cons b bs => cases h
  | succ k ih =>
      obtain ⟨k', rfl⟩ : ∃ j, k' = j + 1 := ⟨k' - 1, by omega⟩
      cases bs with
      | nil => exact h
      | cons b bs =>
          obtain ⟨r, hr, hrest⟩ := Option.bind_eq_some_iff.1 h
          obtain ⟨fs', hfs', rfl⟩ := Option.map_eq_some_iff.1 hrest
          rw [decodeFields, hr, Option.bind_some, ih (by omega) hfs', Option.map_some]
          exact List.cons_ne_nil b bs

/-- The fields that an integer is written as. -/
def uintField (n v : ℕ) : List (ℕ × Field) := if v = 0 then [] else [(n, .varint v)]

/-- An integer comes back before the fields behind it. -/
theorem decodeFields_uint {n v k : ℕ} (hn : 0 < n) (hn' : n < 2 ^ 29) (hv : v < 2 ^ 64) {rest : List Byte}
    {fs : List (ℕ × Field)} (hrest : decodeFields k rest = some fs) :
    decodeFields ((encodeUint n v).length + k) (encodeUint n v ++ rest) = some (uintField n v ++ fs) := by
  by_cases h : v = 0
  · rw [encodeUint, if_pos h, uintField, if_pos h]
    exact decodeFields_mono (by simp) hrest
  · have hfield := decodeField_uint hn hn' hv rest
    rw [encodeUint, if_neg h, uintField, if_neg h]
    obtain ⟨b, bs, hbs⟩ := List.exists_cons_of_ne_nil (List.append_ne_nil_of_left_ne_nil
      (encodeVarint_ne_nil (n := 9) (v := 8 * n)) (encodeVarint 10 v))
    rw [hbs, List.cons_append] at hfield ⊢
    rw [List.length_cons, Nat.add_right_comm, decodeFields, hfield, Option.bind_some,
      decodeFields_mono (Nat.le_add_left k bs.length) hrest, Option.map_some]
    · rfl
    · exact List.cons_ne_nil _ _

/-- A message whose fields are integers comes back. -/
theorem decode_uints (fields : List (ℕ × ℕ)) (h : ∀ f ∈ fields, 0 < f.1 ∧ f.1 < 2 ^ 29 ∧ f.2 < 2 ^ 64) :
    decode (fields.flatMap fun f => encodeUint f.1 f.2) = some (fields.flatMap fun f => uintField f.1 f.2) := by
  induction fields with
  | nil => rfl
  | cons f fields ih =>
      obtain ⟨hn, hn', hv⟩ := h f List.mem_cons_self
      have hrest := ih fun g hg => h g (List.mem_cons_of_mem f hg)
      rw [decode, List.flatMap_cons, List.length_append, List.flatMap_cons]
      exact decodeFields_uint hn hn' hv hrest

theorem length_encodeVarint_le (n v : ℕ) : (encodeVarint n v).length ≤ n := by
  induction n generalizing v with
  | zero => exact le_rfl
  | succ n ih =>
      rw [encodeVarint]
      split_ifs
      · exact Nat.succ_le_succ (Nat.zero_le n)
      · exact Nat.succ_le_succ (ih _)

theorem length_encodeUint_le (n v : ℕ) : (encodeUint n v).length ≤ 20 := by
  unfold encodeUint
  split_ifs
  · exact Nat.zero_le 20
  · rw [List.length_append]
    exact Nat.add_le_add (length_encodeVarint_le 10 _) (length_encodeVarint_le 10 _)

/-- The fields that a string is written as. -/
def bytesField (n : ℕ) (bs : List Byte) : List (ℕ × Field) := if bs = [] then [] else [(n, .bytes bs)]

/-- A field of a message that is written: an integer or a string, which is left out when it has its default value,
or an embedded message. -/
inductive Part where
  | uint (n v : ℕ)
  | bytes (n : ℕ) (bs : List Byte)
  | message (n : ℕ) (bs : List Byte)

namespace Part

def number : Part → ℕ
  | uint n _ => n
  | bytes n _ => n
  | message n _ => n

def encode : Part → List Byte
  | uint n v => encodeUint n v
  | bytes n bs => encodeBytes n bs
  | message n bs => encodeMessage n bs

/-- What is read where the part was written. -/
def fields : Part → List (ℕ × Field)
  | uint n v => uintField n v
  | bytes n bs => bytesField n bs
  | message n bs => [(n, .bytes bs)]

/-- The part can be written: its number is one of a field, and its integer, or its length, has at most 64 bits. -/
def Fits : Part → Prop
  | uint n v => (0 < n ∧ n < 2 ^ 29) ∧ v < 2 ^ 64
  | bytes n bs => (0 < n ∧ n < 2 ^ 29) ∧ bs.length < 2 ^ 64
  | message n bs => (0 < n ∧ n < 2 ^ 29) ∧ bs.length < 2 ^ 64

theorem fields_number (p : Part) {f : ℕ × Field} (hf : f ∈ p.fields) : f.1 = p.number := by
  cases p with
  | uint n v =>
      change f ∈ uintField n v at hf
      unfold uintField at hf
      split_ifs at hf
      · exact absurd hf List.not_mem_nil
      · exact congrArg Prod.fst (List.mem_singleton.1 hf)
  | bytes n bs =>
      change f ∈ bytesField n bs at hf
      unfold bytesField at hf
      split_ifs at hf
      · exact absurd hf List.not_mem_nil
      · exact congrArg Prod.fst (List.mem_singleton.1 hf)
  | message n bs => exact congrArg Prod.fst (List.mem_singleton.1 hf)

end Part

theorem decodeField_message {n : ℕ} {bs : List Byte} (hn : 0 < n) (hn' : n < 2 ^ 29) (hlen : bs.length < 2 ^ 64)
    (rest : List Byte) : decodeField (encodeMessage n bs ++ rest) = some ((n, .bytes bs), rest) := by
  have htag : 8 * n + 2 < 128 ^ 10 := by omega
  have hval : bs.length < 128 ^ 10 := by omega
  have hdiv : (8 * n + 2) / 8 = n := by omega
  have hmod : (8 * n + 2) % 8 = 2 := by omega
  have htake : takeBytes bs.length (bs ++ rest) = some (bs, rest) := by
    rw [takeBytes, if_pos (by simp), List.take_left, List.drop_left]
  rw [decodeField, encodeMessage, List.append_assoc, List.append_assoc, decodeVarint_encodeVarint htag,
    Option.bind_some]
  simp only [hdiv, hmod, decodeVarint_encodeVarint hval, Option.bind_some, htake, Option.map_some,
    if_neg (by omega : ¬n = 0)]

/-- An embedded message comes back before the fields behind it. -/
theorem decodeFields_message {n k : ℕ} {bs : List Byte} (hn : 0 < n) (hn' : n < 2 ^ 29)
    (hlen : bs.length < 2 ^ 64) {rest : List Byte} {fs : List (ℕ × Field)}
    (hrest : decodeFields k rest = some fs) :
    decodeFields ((encodeMessage n bs).length + k) (encodeMessage n bs ++ rest) = some ((n, .bytes bs) :: fs) := by
  have hfield := decodeField_message hn hn' hlen rest
  obtain ⟨b, bs', hbs⟩ : ∃ b bs', encodeMessage n bs = b :: bs' := by
    apply List.exists_cons_of_ne_nil
    exact List.append_ne_nil_of_left_ne_nil (List.append_ne_nil_of_left_ne_nil encodeVarint_ne_nil _) _
  rw [hbs, List.cons_append] at hfield ⊢
  rw [List.length_cons, Nat.add_right_comm, decodeFields, hfield, Option.bind_some,
    decodeFields_mono (Nat.le_add_left k bs'.length) hrest, Option.map_some]
  exact List.cons_ne_nil _ _

/-- A message comes back as the fields of its parts. -/
theorem decode_parts (parts : List Part) (h : ∀ p ∈ parts, p.Fits) :
    decode (parts.flatMap Part.encode) = some (parts.flatMap Part.fields) := by
  induction parts with
  | nil => rfl
  | cons p parts ih =>
      have hp := h p List.mem_cons_self
      have hrest := ih fun q hq => h q (List.mem_cons_of_mem p hq)
      rw [decode, List.flatMap_cons, List.length_append, List.flatMap_cons]
      cases p with
      | uint n v => exact decodeFields_uint hp.1.1 hp.1.2 hp.2 hrest
      | bytes n bs =>
          change decodeFields ((encodeBytes n bs).length + _) (encodeBytes n bs ++ _) = some (bytesField n bs ++ _)
          unfold encodeBytes bytesField
          split_ifs with hbs
          · rw [List.length_nil, Nat.zero_add]
            exact hrest
          · exact decodeFields_message hp.1.1 hp.1.2 hp.2 hrest
      | message n bs => exact decodeFields_message hp.1.1 hp.1.2 hp.2 hrest

/-- The number of the part is one of a field, and its integer has at most 64 bits. -/
def Part.Numbered : Part → Prop
  | uint n v => (0 < n ∧ n < 2 ^ 29) ∧ v < 2 ^ 64
  | bytes n _ => 0 < n ∧ n < 2 ^ 29
  | message n _ => 0 < n ∧ n < 2 ^ 29

/-- The bytes of the strings and messages in a part. -/
def Part.texts : Part → ℕ
  | uint _ _ => 0
  | bytes _ bs => bs.length
  | message _ bs => bs.length

/-- What is written of parts is not much longer than the strings and messages in them. -/
theorem length_flatMap_encode_le (parts : List Part) :
    (parts.flatMap Part.encode).length ≤ 20 * parts.length + (parts.map Part.texts).sum := by
  have hmessage : ∀ n (bs : List Byte), (encodeMessage n bs).length ≤ 20 + bs.length := by
    intro n bs
    have htag := length_encodeVarint_le 10 (8 * n + 2)
    have hlen := length_encodeVarint_le 10 bs.length
    rw [encodeMessage, List.length_append, List.length_append]
    omega
  have hpart : ∀ p : Part, p.encode.length ≤ 20 + p.texts := by
    intro p
    cases p with
    | uint n v => exact length_encodeUint_le n v
    | bytes n bs =>
        change (encodeBytes n bs).length ≤ 20 + bs.length
        unfold encodeBytes
        split_ifs
        · exact Nat.zero_le _
        · exact hmessage n bs
    | message n bs => exact hmessage n bs
  induction parts with
  | nil => exact Nat.zero_le _
  | cons p parts ih =>
      have hp := hpart p
      simp only [List.flatMap_cons, List.length_append, List.length_cons, List.map_cons, List.sum_cons]
      omega

/-- A written part is at least as long as its string. -/
theorem length_le_encode {n : ℕ} {bs : List Byte} {parts : List Part}
    (h : Part.bytes n bs ∈ parts ∨ Part.message n bs ∈ parts) :
    bs.length ≤ (parts.flatMap Part.encode).length := by
  have hmessage : bs.length ≤ (encodeMessage n bs).length := by
    rw [encodeMessage, List.length_append]
    exact Nat.le_add_left _ _
  have hpart : ∀ p ∈ parts, p.encode.length ≤ (parts.flatMap Part.encode).length := by
    intro p hp
    obtain ⟨before, after, rfl⟩ := List.append_of_mem hp
    simp only [List.flatMap_append, List.flatMap_cons, List.length_append]
    omega
  rcases h with h | h
  · refine le_trans ?_ (hpart _ h)
    change bs.length ≤ (encodeBytes n bs).length
    unfold encodeBytes
    split_ifs with hbs
    · rw [hbs]
    · exact hmessage
  · exact hmessage.trans (hpart _ h)

/-- The first bytes of an integer are no integer. -/
theorem decodeVarint_take {n m k v : ℕ} (h : k < (encodeVarint n v).length) :
    decodeVarint m ((encodeVarint n v).take k) = none := by
  induction n generalizing m k v with
  | zero => exact absurd h (Nat.not_lt_zero k)
  | succ n ih =>
      cases k with
      | zero =>
          rw [List.take_zero]
          cases m <;> rfl
      | succ k =>
          rw [encodeVarint] at h ⊢
          split_ifs at h ⊢ with hsmall
          · rw [List.length_singleton] at h
            omega
          · have hbyte : (BitVec.ofNat 8 (v % 128 + 128)).toNat = v % 128 + 128 := by
              rw [BitVec.toNat_ofNat]
              omega
            cases m with
            | zero => rfl
            | succ m =>
                rw [List.length_cons] at h
                rw [List.take_succ_cons, decodeVarint, hbyte, if_neg (by omega), ih (by omega), Option.map_none]

/-- The first bytes of two integers, the second one behind the first one. -/
theorem decodeField_cut_uint {n v k : ℕ} (hn : n < 2 ^ 29)
    (h : k < (encodeVarint 10 (8 * n) ++ encodeVarint 10 v).length) :
    decodeField ((encodeVarint 10 (8 * n) ++ encodeVarint 10 v).take k) = none := by
  have htag : 8 * n < 128 ^ 10 := by omega
  have hdiv : 8 * n / 8 = n := by omega
  have hmod : 8 * n % 8 = 0 := by omega
  rw [List.length_append] at h
  rw [List.take_append]
  by_cases hk : k < (encodeVarint 10 (8 * n)).length
  · rw [Nat.sub_eq_zero_of_le hk.le, List.take_zero, List.append_nil, decodeField, decodeVarint_take hk,
      Option.bind_none]
  · have hcut : k - (encodeVarint 10 (8 * n)).length < (encodeVarint 10 v).length := by omega
    rw [List.take_of_length_le (not_lt.1 hk), decodeField, decodeVarint_encodeVarint htag, Option.bind_some]
    simp only [hdiv, hmod, decodeVarint_take hcut, Option.map_none, ite_self]

theorem decodeField_cut_message {n k : ℕ} {bs : List Byte} (hn : n < 2 ^ 29) (hlen : bs.length < 2 ^ 64)
    (h : k < (encodeMessage n bs).length) : decodeField ((encodeMessage n bs).take k) = none := by
  have htag : 8 * n + 2 < 128 ^ 10 := by omega
  have hval : bs.length < 128 ^ 10 := by omega
  have hdiv : (8 * n + 2) / 8 = n := by omega
  have hmod : (8 * n + 2) % 8 = 2 := by omega
  unfold encodeMessage at h ⊢
  rw [List.append_assoc, List.length_append, List.length_append] at h
  rw [List.append_assoc, List.take_append]
  by_cases hk : k < (encodeVarint 10 (8 * n + 2)).length
  · rw [Nat.sub_eq_zero_of_le hk.le, List.take_zero, List.append_nil, decodeField, decodeVarint_take hk,
      Option.bind_none]
  · rw [List.take_of_length_le (not_lt.1 hk), decodeField, decodeVarint_encodeVarint htag, Option.bind_some]
    simp only [hdiv, hmod]
    split_ifs
    · rfl
    rw [List.take_append]
    by_cases hk' : k - (encodeVarint 10 (8 * n + 2)).length < (encodeVarint 10 bs.length).length
    · rw [Nat.sub_eq_zero_of_le hk'.le, List.take_zero, List.append_nil, decodeVarint_take hk', Option.bind_none]
    · -- the length is there, and says more than what is behind it
      rw [List.take_of_length_le (not_lt.1 hk'), decodeVarint_encodeVarint hval, Option.bind_some, takeBytes,
        if_neg, Option.map_none]
      rw [List.length_take]
      omega

theorem Part.encode_eq_nil {p : Part} (h : p.encode = []) : p.fields = [] := by
  cases p with
  | uint n v =>
      change encodeUint n v = [] at h
      change uintField n v = []
      unfold encodeUint at h
      unfold uintField
      split_ifs at h ⊢
      · rfl
      · exact absurd h (List.append_ne_nil_of_left_ne_nil encodeVarint_ne_nil _)
  | bytes n bs =>
      change encodeBytes n bs = [] at h
      change bytesField n bs = []
      unfold encodeBytes encodeMessage at h
      unfold bytesField
      split_ifs at h ⊢
      · rfl
      · exact absurd h
          (List.append_ne_nil_of_left_ne_nil (List.append_ne_nil_of_left_ne_nil encodeVarint_ne_nil _) _)
  | message n bs =>
      exact absurd h
        (List.append_ne_nil_of_left_ne_nil (List.append_ne_nil_of_left_ne_nil encodeVarint_ne_nil _) _)

/-- A part that is written is one field, and no field when it is cut. -/
theorem Part.decodeField_encode {p : Part} (hp : p.Fits) (hne : p.encode ≠ []) :
    (∃ f, p.fields = [f] ∧ ∀ rest, decodeField (p.encode ++ rest) = some (f, rest)) ∧
      ∀ k < p.encode.length, decodeField (p.encode.take k) = none := by
  cases p with
  | uint n v =>
      obtain ⟨⟨hn, hn'⟩, hv⟩ := hp
      change encodeUint n v ≠ [] at hne
      change (∃ f, uintField n v = [f] ∧ ∀ rest, decodeField (encodeUint n v ++ rest) = some (f, rest)) ∧
        ∀ k < (encodeUint n v).length, decodeField ((encodeUint n v).take k) = none
      unfold encodeUint uintField at *
      split_ifs at hne ⊢
      · exact absurd rfl hne
      · exact ⟨⟨_, rfl, decodeField_uint hn hn' hv⟩, fun k hk => decodeField_cut_uint hn' hk⟩
  | bytes n bs =>
      obtain ⟨⟨hn, hn'⟩, hlen⟩ := hp
      change encodeBytes n bs ≠ [] at hne
      change (∃ f, bytesField n bs = [f] ∧ ∀ rest, decodeField (encodeBytes n bs ++ rest) = some (f, rest)) ∧
        ∀ k < (encodeBytes n bs).length, decodeField ((encodeBytes n bs).take k) = none
      unfold encodeBytes bytesField at *
      split_ifs at hne ⊢
      · exact absurd rfl hne
      · exact ⟨⟨_, rfl, decodeField_message hn hn' hlen⟩, fun k hk => decodeField_cut_message hn' hlen hk⟩
  | message n bs =>
      obtain ⟨⟨hn, hn'⟩, hlen⟩ := hp
      exact ⟨⟨_, rfl, decodeField_message hn hn' hlen⟩, fun k hk => decodeField_cut_message hn' hlen hk⟩

theorem decodeFields_take {parts : List Part} (h : ∀ p ∈ parts, p.Fits) {m k : ℕ} {fs : List (ℕ × Field)}
    (hdecode : decodeFields m ((parts.flatMap Part.encode).take k) = some fs) :
    ∃ j, fs = (parts.take j).flatMap Part.fields := by
  induction parts generalizing m k fs with
  | nil =>
      rw [List.flatMap_nil, List.take_nil] at hdecode
      refine ⟨0, ?_⟩
      cases m <;> exact (Option.some.inj hdecode).symm
  | cons p parts ih =>
      have hfits : ∀ q ∈ parts, q.Fits := fun q hq => h q (List.mem_cons_of_mem p hq)
      rw [List.flatMap_cons, List.take_append] at hdecode
      by_cases hnil : p.encode = []
      · rw [hnil, List.take_nil, List.nil_append, List.length_nil] at hdecode
        obtain ⟨j, rfl⟩ := ih hfits hdecode
        exact ⟨j + 1, by rw [List.take_succ_cons, List.flatMap_cons, Part.encode_eq_nil hnil, List.nil_append]⟩
      obtain ⟨⟨f, hf, hwhole⟩, hcut⟩ := p.decodeField_encode (h p List.mem_cons_self) hnil
      by_cases hk : k < p.encode.length
      · rw [Nat.sub_eq_zero_of_le hk.le, List.take_zero, List.append_nil] at hdecode
        cases hbytes : p.encode.take k with
        | nil =>
            rw [hbytes] at hdecode
            refine ⟨0, ?_⟩
            cases m <;> exact (Option.some.inj hdecode).symm
        | cons b bs =>
            have hnone := hcut k hk
            rw [hbytes] at hdecode hnone
            cases m with
            | zero => cases hdecode
            | succ m =>
                rw [decodeFields, hnone, Option.bind_none] at hdecode
                · cases hdecode
                · exact List.cons_ne_nil b bs
      · rw [List.take_of_length_le (not_lt.1 hk)] at hdecode
        have hne : p.encode ++ (parts.flatMap Part.encode).take (k - p.encode.length) ≠ [] :=
          List.append_ne_nil_of_left_ne_nil hnil _
        cases m with
        | zero =>
            obtain ⟨b, bs, hbs⟩ := List.exists_cons_of_ne_nil hne
            rw [hbs] at hdecode
            cases hdecode
        | succ m =>
            rw [decodeFields, hwhole, Option.bind_some] at hdecode
            · obtain ⟨fs', hfs', rfl⟩ := Option.map_eq_some_iff.1 hdecode
              obtain ⟨j, rfl⟩ := ih hfits hfs'
              exact ⟨j + 1, by rw [List.take_succ_cons, List.flatMap_cons, hf]; rfl⟩
            · exact hne

/-- The first bytes of a message are not read, or they are read as the message of its first parts. -/
theorem decode_take {parts : List Part} (h : ∀ p ∈ parts, p.Fits) {k : ℕ} {fs : List (ℕ × Field)}
    (hdecode : decode ((parts.flatMap Part.encode).take k) = some fs) :
    ∃ j, fs = (parts.take j).flatMap Part.fields := decodeFields_take h hdecode

section values

variable {β : Type} {parts : List Part}

/-- A value that is read from one field does not see the other parts. -/
theorem foldl_of_part {f : β → ℕ × Field → β} {n : ℕ} (hf : ∀ v x, x.1 ≠ n → f v x = v)
    (hnodup : (parts.map Part.number).Nodup) {p : Part} (hp : p ∈ parts) (hn : p.number = n) (v : β) :
    (parts.flatMap Part.fields).foldl f v = p.fields.foldl f v := by
  have hskip : ∀ qs : List Part, n ∉ qs.map Part.number → ∀ v, (qs.flatMap Part.fields).foldl f v = v := by
    intro qs hqs v
    have hnone : ∀ x ∈ qs.flatMap Part.fields, x.1 ≠ n := by
      intro x hx heq
      obtain ⟨q, hq, hx⟩ := List.mem_flatMap.1 hx
      exact hqs (List.mem_map.2 ⟨q, hq, (q.fields_number hx).symm.trans heq⟩)
    generalize qs.flatMap Part.fields = xs at hnone
    induction xs with
    | nil => rfl
    | cons x xs ih =>
        rw [List.foldl_cons, hf v x (hnone x List.mem_cons_self)]
        exact ih fun y hy => hnone y (List.mem_cons_of_mem x hy)
  obtain ⟨before, after, rfl⟩ := List.append_of_mem hp
  rw [List.map_append, List.map_cons] at hnodup
  have hsplit := List.nodup_middle.1 hnodup
  have hnot := (List.nodup_cons.1 hsplit).1
  rw [hn, List.mem_append, not_or] at hnot
  rw [List.flatMap_append, List.flatMap_cons, List.foldl_append, List.foldl_append, hskip before hnot.1,
    hskip after hnot.2]

theorem uintOf_part (hnodup : (parts.map Part.number).Nodup) {n v : ℕ} (hp : .uint n v ∈ parts) :
    uintOf (parts.flatMap Part.fields) n = v := by
  refine (foldl_of_part (fun w x hx => ?_) hnodup hp rfl 0).trans ?_
  · split
    · exact if_neg hx
    · rfl
  · change (uintField n v).foldl _ 0 = v
    unfold uintField
    split_ifs with hv
    · exact hv.symm
    · exact if_pos rfl

theorem bytesOf_part (hnodup : (parts.map Part.number).Nodup) {n : ℕ} {bs : List Byte} (hp : .bytes n bs ∈ parts) :
    bytesOf (parts.flatMap Part.fields) n = bs := by
  refine (foldl_of_part (fun w x hx => ?_) hnodup hp rfl []).trans ?_
  · split
    · exact if_neg hx
    · rfl
  · change (bytesField n bs).foldl _ [] = bs
    unfold bytesField
    split_ifs with hbs
    · exact hbs.symm
    · exact if_pos rfl

theorem messageOf_part (hnodup : (parts.map Part.number).Nodup) {n : ℕ} {bs : List Byte}
    (hp : .message n bs ∈ parts) : messageOf (parts.flatMap Part.fields) n = bs := by
  refine (foldl_of_part (fun w x hx => ?_) hnodup hp rfl []).trans ?_
  · split
    · exact if_neg hx
    · rfl
  · exact if_pos rfl

end values

/-- What a written `int32` is read as. -/
theorem toInt_ofNat_ofInt {v : ℤ} (hlow : -2 ^ 31 ≤ v) (hhigh : v < 2 ^ 31) :
    (BitVec.ofNat 32 (BitVec.ofInt 64 v).toNat).toInt = v := by
  have hlow32 : BitVec.ofNat 32 (BitVec.ofInt 64 v).toNat = BitVec.ofInt 32 v := by
    apply BitVec.eq_of_toNat_eq
    rw [BitVec.toNat_ofNat, BitVec.toNat_ofInt, BitVec.toNat_ofInt]
    omega
  rw [hlow32, BitVec.toInt_ofInt]
  exact Int.bmod_eq_of_le (by omega) (by omega)

end Protobuf
