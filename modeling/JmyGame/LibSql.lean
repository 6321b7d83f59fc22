import JmyGame.LibCArith

/-! String literals of SQL in single quotes, as a MySQL server reads them: two quotes stand for one, a backslash
changes the meaning of the byte behind it, and `\%` and `\_` stand for themselves. -/

namespace Sql

open CArith

/-- The byte that a backslash and a byte stand for. -/
def unescape (c : Byte) : Byte :=
  if c = 48 then 0 else if c = 98 then 8 else if c = 110 then 10 else if c = 114 then 13
  else if c = 116 then 9 else if c = 90 then 26 else c

/-- The value of a literal behind its first quote, and what is behind the literal. -/
def readBody : List Byte → Option (List Byte × List Byte)
  | [] => none
  | [c] => if c = 39 then some ([], []) else none
  | c :: d :: bs =>
    if c = 39 then
      if d = 39 then (readBody bs).map fun r => (39 :: r.1, r.2) else some ([], d :: bs)
    else if c = 92 then
      if d = 37 ∨ d = 95 then (readBody bs).map fun r => (92 :: d :: r.1, r.2)
      else (readBody bs).map fun r => (unescape d :: r.1, r.2)
    else (readBody (d :: bs)).map fun r => (c :: r.1, r.2)

/-- The value of a literal, and what is behind it. -/
def readLiteral : List Byte → Option (List Byte × List Byte)
  | [] => none
  | c :: bs => if c = 39 then readBody bs else none

/-- The text between two quotes. -/
def quote (s : List Byte) : List Byte := 39 :: s ++ [39]

/-- A string whose bytes stand for themselves: it has no quote, and behind a backslash there is `%` or `_`. -/
def Plain : List Byte → Prop
  | [] => True
  | [c] => c ≠ 39 ∧ c ≠ 92
  | c :: d :: s => c ≠ 39 ∧ if c = 92 then (d = 37 ∨ d = 95) ∧ Plain s else Plain (d :: s)

/-- What may be behind a literal. -/
def Ends (post : List Byte) : Prop := ∀ c ∈ post.head?, c ≠ 39 ∧ c ≠ 92

variable {post tail : List Byte}

/-- A quote or a backslash. -/
def Special (c : Byte) : Prop := c = 39 ∨ c = 92

/-- A byte of meaning comes from itself only. -/
theorem unescape_special {d : Byte} (h : Special (unescape d)) : unescape d = d := by
  unfold unescape at h ⊢
  split_ifs at h ⊢ <;> first | rfl | exact absurd h (by unfold Special; decide)

theorem readBody_cons {c : Byte} (hc : ¬Special c) (bs : List Byte) :
    readBody (c :: bs) = (readBody bs).map fun r => (c :: r.1, r.2) := by
  obtain ⟨hquote, hbackslash⟩ := not_or.1 hc
  cases bs with
  | nil => exact if_neg hquote
  | cons d bs => rw [readBody, if_neg hquote, if_neg hbackslash]

theorem readBody_quote (hpost : Ends post) : readBody (39 :: post) = some ([], post) := by
  cases post with
  | nil => rfl
  | cons d post => rw [readBody, if_pos rfl, if_neg (hpost d rfl).1]

/-- What is read at the front of a text: a byte, the end of the literal, two quotes, or a backslash and a byte. -/
inductive ReadStep (c : Byte) (bs v tail : List Byte) : Prop where
  | plain (v' : List Byte) (hc : ¬Special c) (hv : v = c :: v') (h : readBody bs = some (v', tail))
  | close (hc : c = 39) (hv : v = []) (htail : tail = bs)
  | double (bs' v' : List Byte) (hc : c = 39) (hbs : bs = 39 :: bs') (hv : v = 39 :: v')
      (h : readBody bs' = some (v', tail))
  | kept (d : Byte) (bs' v' : List Byte) (hc : c = 92) (hbs : bs = d :: bs') (hd : d = 37 ∨ d = 95)
      (hv : v = 92 :: d :: v') (h : readBody bs' = some (v', tail))
  | escaped (d : Byte) (bs' v' : List Byte) (hc : c = 92) (hbs : bs = d :: bs') (hd : ¬(d = 37 ∨ d = 95))
      (hv : v = unescape d :: v') (h : readBody bs' = some (v', tail))

theorem readBody_step {c : Byte} {bs v tail : List Byte} (h : readBody (c :: bs) = some (v, tail)) :
    ReadStep c bs v tail := by
  cases bs with
  | nil =>
      obtain ⟨hc, heq⟩ := Option.ite_none_right_eq_some.1 h
      cases heq
      exact .close hc rfl rfl
  | cons d bs =>
      rw [readBody] at h
      split_ifs at h with hc hd hc' hd
      · obtain ⟨r, hr, heq⟩ := Option.map_eq_some_iff.1 h
        cases heq
        exact .double bs r.1 hc (by rw [hd]) rfl hr
      · cases h
        exact .close hc rfl rfl
      · obtain ⟨r, hr, heq⟩ := Option.map_eq_some_iff.1 h
        cases heq
        exact .kept d bs r.1 hc' rfl hd rfl hr
      · obtain ⟨r, hr, heq⟩ := Option.map_eq_some_iff.1 h
        cases heq
        exact .escaped d bs r.1 hc' rfl hd rfl hr
      · obtain ⟨r, hr, heq⟩ := Option.map_eq_some_iff.1 h
        cases heq
        exact .plain r.1 (fun hs => hs.elim hc hc') rfl hr

/-- What is read behind a literal does not start with a quote or a backslash. -/
theorem readBody_ne_special (hpost : Ends post) {w y : List Byte} (hw : w ≠ []) (hspecial : ∀ c ∈ w, Special c) :
    readBody post ≠ some (w ++ y, tail) := by
  intro h
  obtain ⟨b, w, rfl⟩ := List.exists_cons_of_ne_nil hw
  cases post with
  | nil => cases h
  | cons d post =>
      obtain ⟨hd, hd'⟩ := hpost d rfl
      have hb := hspecial b List.mem_cons_self
      cases readBody_step h with
      | plain v' hc hv => exact hc ((List.cons.inj hv).1 ▸ hb)
      | close hc => exact hd hc
      | double bs' v' hc => exact hd hc
      | kept _ _ _ hc => exact hd' hc
      | escaped _ _ _ hc => exact hd' hc

/-- The value that is read does not fall behind the text: it is never the rest of the text with quotes and
backslashes before it. -/
theorem readBody_ne_behind (hpost : Ends post) {w u : List Byte} (hw : w ≠ []) (hspecial : ∀ c ∈ w, Special c) :
    readBody (u ++ 39 :: post) ≠ some (w ++ u, tail) := by
  induction hn : u.length using Nat.strong_induction_on generalizing u w with
  | _ n ih =>
  intro h
  obtain ⟨b, w, rfl⟩ := List.exists_cons_of_ne_nil hw
  have hb := hspecial b List.mem_cons_self
  have hspecial' : ∀ c ∈ w, Special c := fun c hc => hspecial c (List.mem_cons_of_mem b hc)
  -- two more bytes of meaning before what is left of the text
  have hmore : ∀ {e f : Byte} {u' : List Byte}, u'.length < n → Special e → Special f →
      readBody (u' ++ 39 :: post) ≠ some (w ++ e :: f :: u', tail) := by
    intro e f u' hlt he hf hread
    refine ih u'.length hlt (w := w ++ [e, f]) (u := u') (by simp) ?_ rfl (by simpa using hread)
    intro c hc
    rcases List.mem_append.1 hc with hc | hc
    · exact hspecial' c hc
    · simp only [List.mem_cons, List.not_mem_nil, or_false] at hc
      exact hc.elim (fun heq => heq ▸ he) fun heq => heq ▸ hf
  have hlast : ∀ {e : Byte}, Special e → readBody post ≠ some (w ++ [e], tail) := by
    intro e he hread
    refine readBody_ne_special hpost (w := w ++ [e]) (y := []) (by simp) ?_ (by simpa using hread)
    intro c hc
    rcases List.mem_append.1 hc with hc | hc
    · exact hspecial' c hc
    · exact List.mem_singleton.1 hc ▸ he
  cases u with
  | nil =>
      rw [List.nil_append, readBody_quote hpost] at h
      cases h
  | cons c u =>
      cases readBody_step h with
      | plain v' hc hv => exact hc ((List.cons.inj hv).1 ▸ hb)
      | close hc hv => cases hv
      | double bs' v' hc hbs hv hread =>
          obtain rfl := (List.cons.inj hv).2
          cases u with
          | nil =>
              obtain rfl := (List.cons.inj hbs).2
              exact hlast (Or.inl hc) hread
          | cons e u =>
              obtain ⟨rfl, rfl⟩ := List.cons.inj hbs
              exact hmore (by rw [← hn, List.length_cons, List.length_cons]; omega) (Or.inl hc) (Or.inl rfl) hread
      | kept d bs' v' hc hbs hd hv =>
          -- the byte behind the backslash is no byte of meaning
          have hspecial_d : Special d := by
            have htail := (List.cons.inj hv).2
            cases w with
            | nil => exact (List.cons.inj htail).1 ▸ Or.inr hc
            | cons e w => exact (List.cons.inj htail).1 ▸ hspecial' e List.mem_cons_self
          rcases hspecial_d with rfl | rfl
          · exact absurd hd (by decide)
          · exact absurd hd (by decide)
      | escaped d bs' v' hc hbs hd hv hread =>
          obtain ⟨hbd, rfl⟩ := List.cons.inj hv
          have hd_eq := unescape_special (hbd ▸ hb)
          have hspecial_d : Special d := by
            rw [← hd_eq, ← hbd]
            exact hb
          cases u with
          | nil =>
              obtain rfl := (List.cons.inj hbs).2
              exact hlast (Or.inr hc) hread
          | cons e u =>
              obtain ⟨rfl, rfl⟩ := List.cons.inj hbs
              exact hmore (by rw [← hn, List.length_cons, List.length_cons]; omega) (Or.inr hc) hspecial_d hread

/-- A string that is put between quotes as it is comes back exactly when its bytes stand for themselves. -/
theorem readBody_plain_iff (hpost : Ends post) (s : List Byte) :
    (∃ tail, readBody (s ++ 39 :: post) = some (s, tail)) ↔ Plain s := by
  induction hn : s.length using Nat.strong_induction_on generalizing s with
  | _ n ih =>
  cases s with
  | nil => exact iff_of_true ⟨post, readBody_quote hpost⟩ trivial
  | cons c s =>
      constructor
      · rintro ⟨tail, h⟩
        cases readBody_step h with
        | plain v' hc hv hread =>
            obtain rfl := (List.cons.inj hv).2
            have hplain := (ih s.length (by rw [← hn, List.length_cons]; omega) s rfl).1 ⟨tail, hread⟩
            obtain ⟨hquote, hbackslash⟩ := not_or.1 hc
            cases s with
            | nil => exact ⟨hquote, hbackslash⟩
            | cons d s => exact ⟨hquote, by rw [if_neg hbackslash]; exact hplain⟩
        | close hc hv => cases hv
        | double bs' v' hc hbs hv hread =>
            obtain rfl := (List.cons.inj hv).2
            cases s with
            | nil =>
                obtain rfl := (List.cons.inj hbs).2
                cases post with
                | nil => cases hread
                | cons d post =>
                    obtain ⟨hd, hd'⟩ := hpost d rfl
                    rw [readBody_cons (not_or.2 ⟨hd, hd'⟩)] at hread
                    obtain ⟨r, -, heq⟩ := Option.map_eq_some_iff.1 hread
                    cases heq
            | cons e s =>
                obtain ⟨rfl, rfl⟩ := List.cons.inj hbs
                exact absurd hread (readBody_ne_behind hpost (w := [39]) (by simp) (by simp [Special]))
        | kept d bs' v' hc hbs hd hv hread =>
            cases s with
            | nil => cases (List.cons.inj hv).2
            | cons e s =>
                obtain ⟨rfl, rfl⟩ := List.cons.inj hbs
                obtain rfl := (List.cons.inj (List.cons.inj hv).2).2
                have hlt : s.length < n := by rw [← hn, List.length_cons, List.length_cons]; omega
                have hplain := (ih s.length hlt s rfl).1 ⟨tail, hread⟩
                refine ⟨by rw [hc]; decide, ?_⟩
                rw [if_pos hc]
                exact ⟨hd, hplain⟩
        | escaped d bs' v' hc hbs hd hv hread =>
            obtain ⟨hcd, rfl⟩ := List.cons.inj hv
            have hspecial : Special (unescape d) := hcd ▸ Or.inr hc
            have hd_eq : d = 92 := calc
              d = unescape d := (unescape_special hspecial).symm
              _ = c := hcd.symm
              _ = 92 := hc
            subst hd_eq
            cases s with
            | nil => cases (List.cons.inj hbs).1
            | cons e s =>
                obtain ⟨rfl, rfl⟩ := List.cons.inj hbs
                exact absurd hread (readBody_ne_behind hpost (w := [92]) (by simp) (by simp [Special]))
      · intro hplain
        cases s with
        | nil =>
            refine ⟨post, ?_⟩
            rw [List.singleton_append, readBody_cons (not_or.2 hplain), readBody_quote hpost]
            rfl
        | cons d s =>
            obtain ⟨hquote, hrest⟩ := hplain
            split_ifs at hrest with hc
            · have hlt : s.length < n := by rw [← hn, List.length_cons, List.length_cons]; omega
              obtain ⟨tail, htail⟩ := (ih s.length hlt s rfl).2 hrest.2
              refine ⟨tail, ?_⟩
              rw [List.cons_append, List.cons_append, readBody, if_neg hquote, if_pos hc, if_pos hrest.1, htail,
                Option.map_some, hc]
            · have hlt : (d :: s).length < n := by rw [← hn]; exact Nat.lt_succ_self _
              obtain ⟨tail, htail⟩ := (ih (d :: s).length hlt (d :: s) rfl).2 hrest
              refine ⟨tail, ?_⟩
              rw [List.cons_append, readBody_cons (not_or.2 ⟨hquote, hc⟩), htail, Option.map_some]

/-- A value that is read has fewer bytes than the text. -/
theorem readBody_length_lt {text v : List Byte} (h : readBody text = some (v, tail)) : v.length < text.length := by
  induction hn : text.length using Nat.strong_induction_on generalizing text v with
  | _ n ih =>
  subst hn
  cases text with
  | nil => cases h
  | cons c bs =>
      cases readBody_step h with
      | plain v' hc hv hread =>
          have hlt := ih bs.length (Nat.lt_succ_self _) hread rfl
          rw [hv, List.length_cons, List.length_cons]
          omega
      | close hc hv htail =>
          rw [hv]
          exact Nat.succ_pos _
      | double bs' v' hc hbs hv hread =>
          have hlt := ih bs'.length (by rw [hbs, List.length_cons, List.length_cons]; omega) hread rfl
          rw [hv, hbs, List.length_cons, List.length_cons, List.length_cons]
          omega
      | kept d bs' v' hc hbs hd hv hread =>
          have hlt := ih bs'.length (by rw [hbs, List.length_cons, List.length_cons]; omega) hread rfl
          rw [hv, hbs, List.length_cons, List.length_cons, List.length_cons, List.length_cons]
          omega
      | escaped d bs' v' hc hbs hd hv hread =>
          have hlt := ih bs'.length (by rw [hbs, List.length_cons, List.length_cons]; omega) hread rfl
          rw [hv, hbs, List.length_cons, List.length_cons, List.length_cons]
          omega

/-- More text behind a literal is left behind it, unless the literal ends the text and the next byte is a quote: then
the two quotes stand for one. -/
theorem readBody_append (more : List Byte) {text v : List Byte} (h : readBody text = some (v, tail)) :
    readBody (text ++ more) = some (v, tail ++ more) ∨
      ∃ more', more = 39 :: more' ∧ readBody (text ++ more) = (readBody more').map fun r => (v ++ 39 :: r.1, r.2) := by
  fun_induction readBody text generalizing v with
  | case1 => cases h
  | case2 =>
      cases h
      cases more with
      | nil => exact .inl rfl
      | cons d more =>
          by_cases hd : d = 39
          · subst hd
            exact .inr ⟨more, rfl, rfl⟩
          · exact .inl (by rw [List.singleton_append, readBody, if_pos rfl, if_neg hd]; rfl)
  | case3 c hc => cases h
  | case4 bs ih =>
      obtain ⟨r, hr, heq⟩ := Option.map_eq_some_iff.1 h
      cases heq
      rw [List.cons_append, List.cons_append, readBody, if_pos rfl, if_pos rfl]
      rcases ih hr with hread | ⟨more', rfl, hread⟩
      · exact .inl (by rw [hread]; rfl)
      · exact .inr ⟨more', rfl, by rw [hread, Option.map_map]; rfl⟩
  | case5 d bs hd =>
      cases h
      exact .inl (by rw [List.cons_append, List.cons_append, readBody, if_pos rfl, if_neg hd])
  | case6 d bs hd hc ih =>
      obtain ⟨r, hr, heq⟩ := Option.map_eq_some_iff.1 h
      cases heq
      rw [List.cons_append, List.cons_append, readBody, if_neg hc, if_pos rfl, if_pos hd]
      rcases ih hr with hread | ⟨more', rfl, hread⟩
      · exact .inl (by rw [hread]; rfl)
      · exact .inr ⟨more', rfl, by rw [hread, Option.map_map]; rfl⟩
  | case7 d bs hd hc ih =>
      obtain ⟨r, hr, heq⟩ := Option.map_eq_some_iff.1 h
      cases heq
      rw [List.cons_append, List.cons_append, readBody, if_neg hc, if_pos rfl, if_neg hd]
      rcases ih hr with hread | ⟨more', rfl, hread⟩
      · exact .inl (by rw [hread]; rfl)
      · exact .inr ⟨more', rfl, by rw [hread, Option.map_map]; rfl⟩
  | case8 c d bs hc hc' ih =>
      obtain ⟨r, hr, heq⟩ := Option.map_eq_some_iff.1 h
      cases heq
      rw [List.cons_append, readBody_cons (not_or.2 ⟨hc, hc'⟩)]
      rcases ih hr with hread | ⟨more', rfl, hread⟩
      · exact .inl (by rw [hread]; rfl)
      · exact .inr ⟨more', rfl, by rw [hread, Option.map_map]; rfl⟩

/-- A literal that is cut before its last quote does not read as its value. -/
theorem readBody_ne_of_cut {body s text : List Byte} (hbody : readBody (body ++ [39]) = some (s, []))
    (hcut : text <+: body) : readBody text ≠ some (s, tail) := by
  intro h
  obtain ⟨rest, rfl⟩ := hcut
  rw [List.append_assoc] at hbody
  rcases readBody_append (rest ++ [39]) h with hread | ⟨more', -, hread⟩
  · have hnil := (Prod.mk.inj (Option.some.inj (hbody.symm.trans hread))).2
    simp at hnil
  · obtain ⟨r, -, heq⟩ := Option.map_eq_some_iff.1 (hread.symm.trans hbody)
    have hlen := congrArg List.length (Prod.mk.inj heq).1
    simp at hlen

end Sql
