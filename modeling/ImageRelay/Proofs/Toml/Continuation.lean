import ImageRelay.Proofs.Toml.Tables

/-!
# Texts that go on

What is read at the start of a text stays as it is when a line break and more follow the text, so
the statements of a text that is read come first in any text that goes on with further lines
(`statements?_append`).

* `Continues`: a reader that reads what another one reads, whatever follows behind a line break.
* `continues_statement?`: statements are read so, over strings, scalars, keys and values.
-/

set_option autoImplicit false

namespace ImageRelay.Toml

/-- What a reader reads at the start of a text is read by another one, the same with more fuel, when
a line break and more follow the text. -/
def Continues {α : Type} (read read' : List Char → Option (α × List Char)) : Prop :=
  ∀ ⦃s : List Char⦄ ⦃x : α⦄ ⦃r : List Char⦄, read s = some (x, r) →
    ∀ t, read' (s ++ '\n' :: t) = some (x, r ++ '\n' :: t)

/-! ## Characters -/

section
variable {p : Char → Bool} (hp : p '\n' = false) (s t : List Char)
include hp

theorem takeWhile_continued : (s ++ '\n' :: t).takeWhile p = s.takeWhile p := by
  induction s with
  | nil => simp [hp]
  | cons c s ih => cases hc : p c <;> simp [hc, ih]

theorem dropWhile_continued : (s ++ '\n' :: t).dropWhile p = s.dropWhile p ++ '\n' :: t := by
  induction s with
  | nil => simp [hp]
  | cons c s ih => cases hc : p c <;> simp [hc, ih]

omit hp in
/-- What stands behind the characters that are taken. -/
theorem drop_takeWhile_continued : (s ++ '\n' :: t).drop (s.takeWhile p).length =
    s.drop (s.takeWhile p).length ++ '\n' :: t :=
  List.drop_append_of_le_length (List.takeWhile_prefix p).length_le

end

theorem length_continued (s t : List Char) : s.length + 1 ≤ (s ++ '\n' :: t).length + 1 := by simp

/-- A text that goes on begins with a character as it did before. -/
theorem exists_of_continued {c : Char} (hc : c ≠ '\n') {s t r : List Char}
    (h : s ++ '\n' :: t = c :: r) : ∃ s', s = c :: s' ∧ r = s' ++ '\n' :: t := by
  cases s with
  | nil => exact absurd (List.cons.inj h).1.symm hc
  | cons d s =>
    obtain ⟨rfl, rfl⟩ := List.cons.inj h
    exact ⟨s, rfl, rfl⟩

theorem skipGap_continued (s t : List Char) : skipGap (s ++ '\n' :: t) = skipGap s ++ '\n' :: t :=
  dropWhile_continued rfl s t

theorem newline?_append {s r : List Char} (h : newline? s = some r) (t : List Char) :
    newline? (s ++ t) = some (r ++ t) := by
  unfold newline? at h
  split at h <;> cases h <;> rfl

/-- Only a carriage return at the end of a text can become a line break. -/
theorem newline?_append_eq_none {c : Char} {r : List Char} (h : newline? (c :: r) = none)
    (hc : c ≠ '\r') (t : List Char) : newline? (c :: r ++ t) = none := by
  have hfeed : c ≠ '\n' := by
    rintro rfl
    cases h
  simp [newline?, hfeed, hc]

/-! ## Strings -/

theorem hexNumber?_continued {n v : Nat} {s : List Char} (h : Text.hexNumber? n s = some v)
    (t : List Char) : n ≤ s.length ∧ Text.hexNumber? n (s ++ t) = some v := by
  unfold Text.hexNumber? at h ⊢
  dsimp only at h ⊢
  split at h
  · rename_i hlen
    have hn : n ≤ s.length := by
      rw [List.length_take] at hlen
      omega
    rw [List.take_append_of_le_length hn, if_pos hlen]
    exact ⟨hn, h⟩
  · cases h

/-- How many digits an escape has, by its letter. -/
def escapeLength? (c : Char) : Option Nat :=
  if c = 'x' then some 2 else if c = 'u' then some 4 else if c = 'U' then some 8 else none

/-- An escape that is not short is a number of as many digits as its letter says. -/
theorem escape?_eq_some_iff {c : Char} (hc : shortEscape? c = none) {s r : List Char} {x : Char} :
    escape? (c :: s) = some (x, r) ↔ ∃ n v, escapeLength? c = some n ∧
      Text.hexNumber? n s = some v ∧ v.isValidChar ∧ x = Char.ofNat v ∧ r = s.drop n := by
  have hread : escape? (c :: s) = (escapeLength? c).bind fun n =>
      (Text.hexNumber? n s).bind fun v =>
        if v.isValidChar then some (Char.ofNat v, s.drop n) else none := by
    simp only [escape?, hc, escapeLength?, beq_iff_eq]
    split
    · rfl
    split
    · rfl
    split <;> rfl
  simp only [hread, Option.bind_eq_some_iff, Option.ite_none_right_eq_some, Option.some.injEq,
    Prod.mk.injEq]
  constructor
  · rintro ⟨n, hn, v, hv, hvalid, rfl, rfl⟩
    exact ⟨n, v, hn, hv, hvalid, rfl, rfl⟩
  · rintro ⟨n, v, hn, hv, hvalid, rfl, rfl⟩
    exact ⟨n, hn, v, hv, hvalid, rfl, rfl⟩

theorem continues_escape? : Continues escape? escape? := by
  intro s x r h t
  cases s with
  | nil => cases h
  | cons c s =>
    rw [List.cons_append]
    cases hshort : shortEscape? c with
    | some y =>
      simp only [escape?, hshort] at h ⊢
      cases h
      rfl
    | none =>
      obtain ⟨n, v, hn, hv, hvalid, rfl, rfl⟩ := (escape?_eq_some_iff hshort).1 h
      obtain ⟨hlen, hv'⟩ := hexNumber?_continued hv ('\n' :: t)
      exact (escape?_eq_some_iff hshort).2
        ⟨n, v, hn, hv', hvalid, rfl, (List.drop_append_of_le_length hlen).symm⟩

/-- An escape begins with none of the characters that are passed over before a line break. -/
theorem head_of_escape? {s : List Char} {x : Char × List Char} (h : escape? s = some x) :
    ∃ c r, s = c :: r ∧ isGap c = false ∧ c ≠ '\r' := by
  cases s with
  | nil => cases h
  | cons c r =>
    have hne (d : Char) (hd : ∀ r, escape? (d :: r) = none) : c ≠ d := by
      rintro rfl
      rw [hd] at h
      cases h
    have hgap : isGap c = false := by
      simp [isGap, hne ' ' fun _ => rfl, hne '\t' fun _ => rfl]
    exact ⟨c, r, rfl, hgap, hne '\r' fun _ => rfl⟩

theorem continues_basicString? {fuel fuel' : Nat} (hf : fuel ≤ fuel') (acc : List Char) :
    Continues (basicString? fuel acc) (basicString? fuel' acc) := by
  induction fuel generalizing fuel' acc with
  | zero => nofun
  | succ fuel ih =>
    intro s x r h t
    obtain ⟨fuel', rfl⟩ : ∃ n, fuel' = n + 1 := ⟨fuel' - 1, by omega⟩
    have hf' : fuel ≤ fuel' := Nat.le_of_succ_le_succ hf
    cases s with
    | nil => cases h
    | cons c s =>
      simp only [List.cons_append, basicString?] at h ⊢
      split at h
      · rename_i hquote
        cases h
        rw [if_pos hquote]
      · rename_i hquote
        rw [if_neg hquote]
        split at h
        · rename_i hback
          rw [if_pos hback]
          cases he : escape? s with
          | none => simp [he] at h
          | some p =>
            rw [he] at h
            rw [continues_escape? he t]
            exact ih hf' _ h t
        · rename_i hback
          rw [if_neg hback]
          split at h
          · cases h
          · rename_i hcontrol
            rw [if_neg hcontrol]
            exact ih hf' _ h t

theorem continues_literalString? : Continues literalString? literalString? := by
  intro s x r h t
  unfold literalString? at h ⊢
  dsimp only at h ⊢
  rw [takeWhile_continued rfl, drop_takeWhile_continued]
  split at h
  · rename_i hr
    cases h
    rw [hr]
    rfl
  · cases h

theorem closing?_continued {quote : Char} (hq : quote ≠ '\n') (s t : List Char) :
    closing? quote (s ++ '\n' :: t) =
      (closing? quote s).map fun (more, r) => (more, r ++ '\n' :: t) := by
  have hend : ('\n' == quote) = false := by simpa using hq.symm
  unfold closing?
  dsimp only
  rw [takeWhile_continued hend]
  split
  · rfl
  · have hle : min (s.takeWhile (· == quote)).length 5 ≤ s.length :=
      Nat.le_trans (Nat.min_le_left _ _) (List.takeWhile_prefix _).length_le
    rw [List.drop_append_of_le_length hle]
    rfl

theorem linesString?_nil (quote : Char) (fuel : Nat) (acc : List Char) :
    linesString? quote fuel acc [] = none := by
  cases fuel <;> rfl

/-- What is passed over behind an escaped line break ends in front of a character of the string. -/
theorem skipLines_append {s : List Char} (h : skipLines s ≠ []) (t : List Char) :
    skipLines (s ++ t) = skipLines s ++ t := by
  rw [skipLines, List.dropWhile_append]
  exact if_neg (by simpa [skipLines] using h)

theorem continues_linesString? {quote : Char} (hq : quote ≠ '\n') {fuel fuel' : Nat}
    (hf : fuel ≤ fuel') (acc : List Char) :
    Continues (linesString? quote fuel acc) (linesString? quote fuel' acc) := by
  induction fuel generalizing fuel' acc with
  | zero => nofun
  | succ fuel ih =>
    intro s x r h t
    obtain ⟨fuel', rfl⟩ : ∃ n, fuel' = n + 1 := ⟨fuel' - 1, by omega⟩
    have hf' : fuel ≤ fuel' := Nat.le_of_succ_le_succ hf
    cases s with
    | nil => cases h
    | cons c s =>
      simp only [List.cons_append, linesString?] at h ⊢
      split at h
      · -- a quote ends the string or belongs to it
        rename_i hquote
        have hclose := closing?_continued hq (c :: s) t
        rw [List.cons_append] at hclose
        rw [if_pos hquote, hclose]
        cases hc : closing? quote (c :: s) with
        | none =>
          rw [hc] at h
          exact ih hf' _ h t
        | some p =>
          rw [hc] at h
          cases h
          rfl
      · rename_i hquote
        rw [if_neg hquote]
        split at h
        · -- behind a backslash: a line break that is passed over, or an escape
          rename_i hback
          rw [if_pos hback, skipGap_continued]
          cases hbreak : newline? (skipGap s) with
          | some r' =>
            rw [hbreak] at h
            have hmore : skipLines s ≠ [] := fun hnil => by
              simp [hnil, linesString?_nil] at h
            rw [newline?_append hbreak, skipLines_append hmore]
            exact ih hf' _ h t
          | none =>
            rw [hbreak] at h
            cases he : escape? s with
            | none => simp [he] at h
            | some p =>
              obtain ⟨d, r', rfl, hgap, hd⟩ := head_of_escape? he
              rw [skipGap_cons hgap] at hbreak ⊢
              rw [he] at h
              rw [newline?_append_eq_none hbreak hd, continues_escape? he t]
              exact ih hf' _ h t
        · -- a line break or another character of the string
          rename_i hback
          rw [if_neg hback]
          cases hbreak : newline? (c :: s) with
          | some r' =>
            rw [hbreak] at h
            have hbreak' := newline?_append hbreak ('\n' :: t)
            rw [List.cons_append] at hbreak'
            rw [hbreak']
            exact ih hf' _ h t
          | none =>
            rw [hbreak] at h
            dsimp only at h
            split at h
            · cases h
            · rename_i hcontrol
              have hc : c ≠ '\r' := by
                rintro rfl
                exact hcontrol rfl
              have hbreak' := newline?_append_eq_none hbreak hc ('\n' :: t)
              rw [List.cons_append] at hbreak'
              rw [hbreak']
              dsimp only
              rw [if_neg hcontrol]
              exact ih hf' _ h t

/-- The line break that is dropped behind triple quotes. -/
theorem firstBreak_continued {quote : Char} (hq : quote ≠ '\r') {fuel : Nat} {s : List Char}
    {x : List Char × List Char} (h : linesString? quote fuel [] ((newline? s).getD s) = some x)
    (t : List Char) : (newline? (s ++ '\n' :: t)).getD (s ++ '\n' :: t) =
      (newline? s).getD s ++ '\n' :: t := by
  cases hbreak : newline? s with
  | some r =>
    rw [newline?_append hbreak]
    rfl
  | none =>
    rw [hbreak] at h
    cases s with
    | nil => simp [linesString?_nil] at h
    | cons c s =>
      have hc : c ≠ '\r' := by
        rintro rfl
        cases fuel with
        | zero => cases h
        | succ fuel => simp [linesString?, hbreak, hq.symm, isControl] at h
      rw [newline?_append_eq_none hbreak hc]
      rfl

theorem not_pair_of_continued {quote : Char} (hq : quote ≠ '\n') {s : List Char}
    (h : ∀ r, s ≠ quote :: quote :: r) (t r : List Char) :
    s ++ '\n' :: t ≠ quote :: quote :: r := by
  intro heq
  obtain ⟨s', rfl, hr⟩ := exists_of_continued hq heq
  obtain ⟨s'', rfl, -⟩ := exists_of_continued hq hr.symm
  exact h s'' rfl

theorem continues_stringAt? : Continues stringAt? stringAt? := by
  intro s x r h t
  have hlen := length_continued s t
  unfold stringAt? at h
  dsimp only at h
  split at h
  · have hread := continues_linesString? (by decide) hlen [] h t
    rw [← firstBreak_continued (by decide) h] at hread
    exact hread
  · have hread := continues_linesString? (by decide) hlen [] h t
    rw [← firstBreak_continued (by decide) h] at hread
    exact hread
  · rename_i r' hnot
    have hnot' (r'' : List Char) : r' ++ '\n' :: t ≠ '"' :: '"' :: r'' :=
      not_pair_of_continued (by decide) hnot t r''
    rw [List.cons_append, stringAt?_double hnot']
    exact continues_basicString? (by simp) [] h t
  · rename_i r' hnot
    have hnot' (r'' : List Char) : r' ++ '\n' :: t ≠ '\'' :: '\'' :: r'' :=
      not_pair_of_continued (by decide) hnot t r''
    rw [List.cons_append, stringAt?_single hnot']
    exact continues_literalString? h t
  · cases h

/-! ## Scalars -/

section
variable {s word r : List Char} (hw : s.takeWhile isScalarChar = word)
include hw

/-- A word, and a space with one more character behind it, where a time may stand. -/
theorem scalarAt?_eq_of_gap {c : Char} (hr : s.drop word.length = ' ' :: c :: r) :
    scalarAt? s = if date? word == some [] && c.isDigit then
      (scalar? (word ++ ' ' :: (c :: r).takeWhile isScalarChar)).map
        (·, (c :: r).drop ((c :: r).takeWhile isScalarChar).length)
    else (scalar? word).map (·, ' ' :: c :: r) := by
  subst hw
  rw [scalarAt?, hr]
  rfl

theorem scalarAt?_eq (hr : ∀ c r, s.drop word.length ≠ ' ' :: c :: r) :
    scalarAt? s = (scalar? word).map (·, s.drop word.length) := by
  subst hw
  unfold scalarAt?
  dsimp only
  split
  · rename_i c r hcut
    exact absurd hcut (hr c r)
  · rfl

end

theorem continues_scalarAt? : Continues scalarAt? scalarAt? := by
  intro s x r h t
  have hword := takeWhile_continued (p := isScalarChar) rfl s t
  have hrest := drop_takeWhile_continued (p := isScalarChar) s t
  unfold scalarAt? at h
  dsimp only at h
  generalize s.takeWhile isScalarChar = word at h hword hrest
  split at h
  · rename_i c r' hr
    rw [hr] at h hrest
    rw [List.cons_append, List.cons_append] at hrest
    rw [scalarAt?_eq_of_gap hword hrest]
    split at h
    · rename_i hdate
      obtain ⟨v, hv, hx⟩ := Option.map_eq_some_iff.1 h
      cases hx
      have htime := takeWhile_continued (p := isScalarChar) rfl (c :: r') t
      have hbehind := drop_takeWhile_continued (p := isScalarChar) (c :: r') t
      rw [List.cons_append] at htime hbehind
      rw [if_pos hdate, htime, hv, Option.map_some, hbehind]
    · rename_i hdate
      obtain ⟨v, hv, hx⟩ := Option.map_eq_some_iff.1 h
      cases hx
      rw [if_neg hdate, hv]
      rfl
  · rename_i hnot
    obtain ⟨v, hv, hx⟩ := Option.map_eq_some_iff.1 h
    cases hx
    by_cases hend : s.drop word.length = [' ']
    · -- the space at the end stands before the line break
      rw [hend] at hrest
      rw [scalarAt?_eq_of_gap hword hrest, hend, hv]
      simp
    · have hnot' (c : Char) (r' : List Char) :
          (s ++ '\n' :: t).drop word.length ≠ ' ' :: c :: r' := by
        intro hcut
        rw [hrest] at hcut
        obtain ⟨s', hs, hr'⟩ := exists_of_continued (by decide) hcut
        cases s' with
        | nil => exact hend hs
        | cons d s' => exact hnot d s' hs
      rw [scalarAt?_eq hword hnot', hv, hrest]
      rfl

/-! ## Keys -/

theorem continues_keyPart? : Continues keyPart? keyPart? := by
  intro s x r h t
  unfold keyPart? at h
  split at h
  · rename_i r'
    obtain ⟨⟨k, r''⟩, hk, hx⟩ := Option.map_eq_some_iff.1 h
    cases hx
    have hlen : ('"' :: r').length + 1 ≤ ('"' :: (r' ++ '\n' :: t)).length + 1 := by simp
    have hread := continues_basicString? hlen [] hk t
    simp only [List.cons_append, keyPart?, hread, Option.map_some]
  · rename_i r'
    obtain ⟨⟨k, r''⟩, hk, hx⟩ := Option.map_eq_some_iff.1 h
    cases hx
    simp only [List.cons_append, keyPart?, continues_literalString? hk t, Option.map_some]
  · rename_i hdouble hsingle
    dsimp only at h
    split at h
    · cases h
    · rename_i hne
      cases h
      unfold keyPart?
      split
      · rename_i heq
        obtain ⟨s', rfl, -⟩ := exists_of_continued (by decide) heq
        exact absurd rfl (hdouble s')
      · rename_i heq
        obtain ⟨s', rfl, -⟩ := exists_of_continued (by decide) heq
        exact absurd rfl (hsingle s')
      · dsimp only
        rw [takeWhile_continued rfl, drop_takeWhile_continued, if_neg hne]

theorem continues_key? {fuel fuel' : Nat} (hf : fuel ≤ fuel') :
    Continues (key? fuel) (key? fuel') := by
  induction fuel generalizing fuel' with
  | zero => nofun
  | succ fuel ih =>
    intro s x r h t
    obtain ⟨fuel', rfl⟩ : ∃ n, fuel' = n + 1 := ⟨fuel' - 1, by omega⟩
    unfold key? at h
    split at h
    · cases h
    · rename_i k r' hk
      have hk' := continues_keyPart? hk t
      rw [← skipGap_continued] at hk'
      have hgap := skipGap_continued r' t
      split at h
      · rename_i r'' hdot
        obtain ⟨⟨ks, r₃⟩, hks, hx⟩ := Option.map_eq_some_iff.1 h
        cases hx
        rw [hdot] at hgap
        have hks' := ih (Nat.le_of_succ_le_succ hf) hks t
        simp only [key?, hk', hgap, List.cons_append, hks', Option.map_some]
      · rename_i hnot
        cases h
        simp only [key?, hk', hgap]
        split
        · rename_i heq
          obtain ⟨s', hs, -⟩ := exists_of_continued (by decide) heq
          exact absurd hs (hnot s')
        · rfl

/-! ## Spaces, line breaks and comments -/

theorem skipComment?_continued {s r : List Char} (h : skipComment? s = some r) (t : List Char) :
    skipComment? (s ++ '\n' :: t) = some (r ++ '\n' :: t) := by
  unfold skipComment? at h
  split at h
  · rename_i r'
    have hdrop := dropWhile_continued (p := (!isControl ·)) rfl r' t
    simp only [List.cons_append, skipComment?, hdrop]
    dsimp only at h
    split at h <;> rename_i hr
    · cases h
      rw [hr]
      rfl
    · cases h
      rw [hr]
      rfl
    · cases h
      rw [hr]
      rfl
    · cases h
  · rename_i hnot
    cases h
    unfold skipComment?
    split
    · rename_i heq
      obtain ⟨s', rfl, -⟩ := exists_of_continued (by decide) heq
      exact absurd rfl (hnot s')
    · rfl

/-- What stands behind spaces, line breaks and comments. -/
theorem skipSpace?_continued {fuel fuel' : Nat} (hf : fuel ≤ fuel') {s r : List Char} {c : Char}
    (h : skipSpace? fuel s = some (c :: r)) (hc : c ≠ '\r') (t : List Char) :
    skipSpace? fuel' (s ++ '\n' :: t) = some (c :: r ++ '\n' :: t) := by
  induction fuel generalizing fuel' s with
  | zero => cases h
  | succ fuel ih =>
    obtain ⟨fuel', rfl⟩ : ∃ n, fuel' = n + 1 := ⟨fuel' - 1, by omega⟩
    rw [skipSpace?] at h ⊢
    rw [skipGap_continued]
    cases hcomment : skipComment? (skipGap s) with
    | none => simp [hcomment] at h
    | some r' =>
      rw [hcomment] at h
      rw [skipComment?_continued hcomment t]
      dsimp only at h ⊢
      cases hbreak : newline? r' with
      | some r'' =>
        rw [hbreak] at h
        rw [newline?_append hbreak]
        exact ih (Nat.le_of_succ_le_succ hf) h
      | none =>
        rw [hbreak] at h
        cases h
        rw [newline?_append_eq_none hbreak hc]

/-! ## Values -/

/-- A key does not begin with a carriage return. -/
theorem head_of_key? {fuel : Nat} {s : List Char} {x : List String × List Char}
    (h : key? fuel s = some x) : ∃ c r, s = c :: r ∧ c ≠ '\r' := by
  cases fuel with
  | zero => cases h
  | succ fuel =>
    cases s with
    | nil => cases h
    | cons c r =>
      refine ⟨c, r, rfl, ?_⟩
      rintro rfl
      cases h

/-- A value does not begin with a carriage return. -/
theorem head_of_value? {fuel depth : Nat} {s : List Char} {x : Value × List Char}
    (h : value? fuel depth s = some x) : ∃ c r, s = c :: r ∧ c ≠ '\r' := by
  cases fuel with
  | zero => simp [value?] at h
  | succ fuel =>
    cases s with
    | nil => simp [value?] at h
    | cons c r =>
      refine ⟨c, r, rfl, ?_⟩
      rintro rfl
      have hscalar : scalarAt? ('\r' :: r) = none := rfl
      simp [value?, hscalar] at h

/-- The ways to read the items of an array. -/
theorem items?_eq_some_iff {fuel depth : Nat} {acc items : List Value} {s r : List Char} :
    items? (fuel + 1) depth acc s = some (items, r) ↔
      (skipSpace? (s.length + 1) s = some (']' :: r) ∧ items = acc) ∨
      ∃ s' v r', skipSpace? (s.length + 1) s = some s' ∧ (∀ r, s' ≠ ']' :: r) ∧
        value? fuel depth s' = some (v, r') ∧
        ((∃ r'', skipSpace? (r'.length + 1) r' = some (',' :: r'') ∧
            items? fuel depth (acc ++ [v]) r'' = some (items, r)) ∨
          skipSpace? (r'.length + 1) r' = some (']' :: r) ∧ items = acc ++ [v]) := by
  constructor
  · intro h
    rw [items?] at h
    split at h
    · cases h
    · rename_i hs
      cases h
      exact .inl ⟨hs, rfl⟩
    · rename_i s' hnot hs
      split at h
      · cases h
      · rename_i v r' hv
        refine .inr ⟨s', v, r', hs, hnot, hv, ?_⟩
        split at h
        · rename_i r'' hr
          exact .inl ⟨r'', hr, h⟩
        · rename_i hr
          cases h
          exact .inr ⟨hr, rfl⟩
        · cases h
  · rintro (⟨hs, rfl⟩ | ⟨s', v, r', hs, hnot, hv, ⟨r'', hr, h⟩ | ⟨hr, rfl⟩⟩)
    · simp [items?, hs]
    · simp [items?, hs, hv, hr, h]
    · simp [items?, hs, hv, hr]

/-- The ways to read the members of an inline table. -/
theorem members?_eq_some_iff {fuel depth : Nat} {acc es : Entries} {s r : List Char} :
    members? (fuel + 1) depth acc s = some (es, r) ↔
      (skipSpace? (s.length + 1) s = some ('\x7d' :: r) ∧ es = acc) ∨
      ∃ s' k v r₁ r₂ acc', skipSpace? (s.length + 1) s = some s' ∧ (∀ r, s' ≠ '\x7d' :: r) ∧
        key? (s'.length + 1) s' = some (k, '=' :: r₁) ∧
        value? fuel depth (skipGap r₁) = some (v, r₂) ∧
        Entries.addEntry k v .inlined acc = some acc' ∧
        ((∃ r₃, skipSpace? (r₂.length + 1) r₂ = some (',' :: r₃) ∧
            members? fuel depth acc' r₃ = some (es, r)) ∨
          skipSpace? (r₂.length + 1) r₂ = some ('\x7d' :: r) ∧ es = acc') := by
  constructor
  · intro h
    rw [members?] at h
    split at h
    · cases h
    · rename_i hs
      cases h
      exact .inl ⟨hs, rfl⟩
    · rename_i s' hnot hs
      split at h
      · rename_i k r₁ hk
        split at h
        · cases h
        · rename_i v r₂ hv
          split at h
          · rename_i acc' r₃ hacc hr
            exact .inr ⟨s', k, v, r₁, r₂, acc', hs, hnot, hk, hv, hacc, .inl ⟨r₃, hr, h⟩⟩
          · rename_i hacc hr
            cases h
            exact .inr ⟨s', k, v, r₁, r₂, es, hs, hnot, hk, hv, hacc, .inr ⟨hr, rfl⟩⟩
          · cases h
      · cases h
  · rintro (⟨hs, rfl⟩ |
      ⟨s', k, v, r₁, r₂, acc', hs, hnot, hk, hv, hacc, ⟨r₃, hr, h⟩ | ⟨hr, rfl⟩⟩)
    · simp [members?, hs]
    · simp [members?, hs, hk, hv, hacc, hr, h]
    · simp [members?, hs, hk, hv, hacc, hr]

/-- A value that is not between brackets or braces is a string or another scalar. -/
theorem value?_eq_of_scalar {c : Char} (hc : c ≠ '[' ∧ c ≠ '\x7b') (fuel depth : Nat)
    (r : List Char) : value? (fuel + 1) depth (c :: r) =
      if c = '"' ∨ c = '\'' then
        (stringAt? (c :: r)).map fun (text, r) => (.string (String.ofList text), r)
      else scalarAt? (c :: r) := by
  simp [value?, hc.1, hc.2]

section
variable {fuel fuel' depth : Nat}

theorem continues_items? (hv : Continues (value? fuel depth) (value? fuel' depth))
    (hi : ∀ acc, Continues (items? fuel depth acc) (items? fuel' depth acc)) (acc : List Value) :
    Continues (items? (fuel + 1) depth acc) (items? (fuel' + 1) depth acc) := by
  intro s x r h t
  have hskip {s r : List Char} {c : Char} (hs : skipSpace? (s.length + 1) s = some (c :: r))
      (hc : c ≠ '\r') := skipSpace?_continued (length_continued s t) hs hc t
  rcases items?_eq_some_iff.1 h with ⟨hs, rfl⟩ | ⟨s', v, r', hs, hnot, hval, hbehind⟩
  · exact items?_eq_some_iff.2 (.inl ⟨hskip hs (by decide), rfl⟩)
  · obtain ⟨c, r₀, rfl, hc⟩ := head_of_value? hval
    refine items?_eq_some_iff.2 (.inr ⟨_, v, _, hskip hs hc, ?_, hv hval t, ?_⟩)
    · intro r hr
      exact hnot r₀ (by rw [(List.cons.inj hr).1])
    · rcases hbehind with ⟨r'', hr, hmore⟩ | ⟨hr, rfl⟩
      · exact .inl ⟨_, hskip hr (by decide), hi _ hmore t⟩
      · exact .inr ⟨hskip hr (by decide), rfl⟩

theorem continues_members? (hv : Continues (value? fuel depth) (value? fuel' depth))
    (hm : ∀ acc, Continues (members? fuel depth acc) (members? fuel' depth acc)) (acc : Entries) :
    Continues (members? (fuel + 1) depth acc) (members? (fuel' + 1) depth acc) := by
  intro s x r h t
  have hskip {s r : List Char} {c : Char} (hs : skipSpace? (s.length + 1) s = some (c :: r))
      (hc : c ≠ '\r') := skipSpace?_continued (length_continued s t) hs hc t
  rcases members?_eq_some_iff.1 h with ⟨hs, rfl⟩ |
    ⟨s', k, v, r₁, r₂, acc', hs, hnot, hk, hval, hacc, hbehind⟩
  · exact members?_eq_some_iff.2 (.inl ⟨hskip hs (by decide), rfl⟩)
  · obtain ⟨c, r₀, rfl, hc⟩ := head_of_key? hk
    have hk' := continues_key? (length_continued _ t) hk t
    rw [List.cons_append] at hk'
    refine members?_eq_some_iff.2 (.inr ⟨_, k, v, r₁ ++ '\n' :: t, r₂ ++ '\n' :: t, acc',
      hskip hs hc, ?_, hk', ?_, hacc, ?_⟩)
    · intro r hr
      exact hnot r₀ (by rw [(List.cons.inj hr).1])
    · rw [skipGap_continued]
      exact hv hval t
    · rcases hbehind with ⟨r₃, hr, hmore⟩ | ⟨hr, rfl⟩
      · exact .inl ⟨_, hskip hr (by decide), hm _ hmore t⟩
      · exact .inr ⟨hskip hr (by decide), rfl⟩

end

theorem continues_value?_of {fuel fuel' : Nat}
    (hi : ∀ depth acc, Continues (items? fuel depth acc) (items? fuel' depth acc))
    (hm : ∀ depth acc, Continues (members? fuel depth acc) (members? fuel' depth acc))
    (depth : Nat) : Continues (value? (fuel + 1) depth) (value? (fuel' + 1) depth) := by
  intro s x r h t
  cases s with
  | nil => simp [value?] at h
  | cons c s =>
    by_cases hopen : c = '[' ∨ c = '\x7b'
    · cases depth with
      | zero => rcases hopen with rfl | rfl <;> simp [value?] at h
      | succ depth =>
        rcases hopen with rfl | rfl
        · simp only [value?, List.cons_append] at h ⊢
          obtain ⟨⟨items, r'⟩, hitems, hx⟩ := Option.map_eq_some_iff.1 h
          cases hx
          rw [hi depth [] hitems t]
          rfl
        · simp only [value?, List.cons_append] at h ⊢
          obtain ⟨⟨es, r'⟩, hmembers, hx⟩ := Option.map_eq_some_iff.1 h
          cases hx
          rw [hm depth [] hmembers t]
          rfl
    · have hscalar := not_or.1 hopen
      rw [value?_eq_of_scalar hscalar] at h
      rw [List.cons_append, value?_eq_of_scalar hscalar, ← List.cons_append]
      split at h
      · rename_i hquote
        obtain ⟨⟨text, r'⟩, hs, hx⟩ := Option.map_eq_some_iff.1 h
        cases hx
        rw [if_pos hquote, continues_stringAt? hs t]
        rfl
      · rename_i hquote
        rw [if_neg hquote]
        exact continues_scalarAt? h t

/-- By induction on the fuel, for values, items and members at once. -/
theorem continues_values {fuel fuel' : Nat} (hf : fuel ≤ fuel') :
    (∀ depth, Continues (value? fuel depth) (value? fuel' depth)) ∧
    (∀ depth acc, Continues (items? fuel depth acc) (items? fuel' depth acc)) ∧
    ∀ depth acc, Continues (members? fuel depth acc) (members? fuel' depth acc) := by
  induction fuel generalizing fuel' with
  | zero =>
    refine ⟨fun depth s x r h => ?_, fun depth acc s x r h => ?_, fun depth acc s x r h => ?_⟩
    · simp [value?] at h
    · simp [items?] at h
    · simp [members?] at h
  | succ fuel ih =>
    obtain ⟨fuel', rfl⟩ : ∃ n, fuel' = n + 1 := ⟨fuel' - 1, by omega⟩
    obtain ⟨hv, hi, hm⟩ := ih (Nat.le_of_succ_le_succ hf)
    exact ⟨continues_value?_of hi hm, fun depth => continues_items? (hv depth) (hi depth),
      fun depth => continues_members? (hv depth) (hm depth)⟩

theorem continues_value? {fuel fuel' : Nat} (hf : fuel ≤ fuel') (depth : Nat) :
    Continues (value? fuel depth) (value? fuel' depth) :=
  (continues_values hf).1 depth

/-! ## Statements -/

/-- The ways to read a statement. -/
theorem statement?_eq_some_iff {s r : List Char} {st : Statement} :
    statement? s = some (st, r) ↔
      (∃ r' path, s = '[' :: '[' :: r' ∧
        key? (s.length + 1) r' = some (path, ']' :: ']' :: r) ∧ st = .arrayHeader path) ∨
      (∃ r' path, s = '[' :: r' ∧ (∀ r, r' ≠ '[' :: r) ∧
        key? (s.length + 1) r' = some (path, ']' :: r) ∧ st = .header path) ∨
      ∃ k r' v, (∀ r, s ≠ '[' :: r) ∧ key? (s.length + 1) s = some (k, '=' :: r') ∧
        value? (s.length + 1) maxDepth (skipGap r') = some (v, r) ∧ st = .entry k v := by
  constructor
  · intro h
    unfold statement? at h
    dsimp only at h
    split at h
    · rename_i r'
      split at h
      · rename_i path r'' hk
        cases h
        exact .inl ⟨r', path, rfl, hk, rfl⟩
      · cases h
    · rename_i r' hnot
      split at h
      · rename_i path r'' hk
        cases h
        exact .inr (.inl ⟨r', path, rfl, hnot, hk, rfl⟩)
      · cases h
    · rename_i hnot
      split at h
      · rename_i k r' hk
        obtain ⟨⟨v, r''⟩, hv, hx⟩ := Option.map_eq_some_iff.1 h
        cases hx
        exact .inr (.inr ⟨k, r', v, hnot, hk, hv, rfl⟩)
      · cases h
  · rintro (⟨r', path, rfl, hk, rfl⟩ | ⟨r', path, rfl, hnot, hk, rfl⟩ |
      ⟨k, r', v, hnot, hk, hv, rfl⟩)
    · simp only [statement?, hk]
    · rw [List.length_cons] at hk
      simp [statement?, hk]
    · unfold statement?
      dsimp only
      split
      · exact absurd rfl (hnot _)
      · exact absurd rfl (hnot _)
      · simp only [hk, hv, Option.map_some]

theorem continues_statement? : Continues statement? statement? := by
  intro s x r h t
  have hlen := length_continued s t
  rcases statement?_eq_some_iff.1 h with ⟨r', path, rfl, hk, rfl⟩ | ⟨r', path, rfl, hnot, hk, rfl⟩ |
    ⟨k, r', v, hnot, hk, hv, rfl⟩
  · exact statement?_eq_some_iff.2 (.inl ⟨_, path, rfl, continues_key? hlen hk t, rfl⟩)
  · refine statement?_eq_some_iff.2 (.inr (.inl ⟨_, path, rfl, fun r hr => ?_,
      continues_key? hlen hk t, rfl⟩))
    obtain ⟨r'', rfl, -⟩ := exists_of_continued (by decide) hr
    exact hnot r'' rfl
  · refine statement?_eq_some_iff.2 (.inr (.inr ⟨k, r' ++ '\n' :: t, v, fun r hr => ?_,
      continues_key? hlen hk t, ?_, rfl⟩))
    · obtain ⟨r'', rfl, -⟩ := exists_of_continued (by decide) hr
      exact hnot r'' rfl
    · rw [skipGap_continued]
      exact continues_value? hlen maxDepth hv t

/-! ## Texts -/

/-- No statement begins with a carriage return. -/
theorem head_of_statement? {s : List Char} {x : Statement × List Char} (h : statement? s = some x) :
    ∃ c r, s = c :: r ∧ c ≠ '\r' := by
  obtain ⟨st, r⟩ := x
  rcases statement?_eq_some_iff.1 h with ⟨r', path, rfl, -, -⟩ | ⟨r', path, rfl, -, -, -⟩ |
    ⟨k, r', v, -, hk, -, -⟩
  · exact ⟨_, _, rfl, by decide⟩
  · exact ⟨_, _, rfl, by decide⟩
  · exact head_of_key? hk

/-- Behind a text without statements, the lines that follow are next. -/
theorem skipSpace?_of_end {fuel : Nat} {s : List Char} (h : skipSpace? fuel s = some [])
    {text : List Char} {sts : List Statement} (ht : Lines text sts) {fuel' : Nat}
    (hf : fuel + text.length < fuel') :
    skipSpace? fuel' (s ++ '\n' :: text) = skipSpace? (text.length + 1) text := by
  obtain ⟨next, hnext⟩ := ht.exists_skipSpace?
  rw [hnext _ (Nat.lt_succ_self _)]
  induction fuel generalizing fuel' s with
  | zero => cases h
  | succ fuel ih =>
    obtain ⟨fuel', rfl⟩ : ∃ n, fuel' = n + 1 := ⟨fuel' - 1, by omega⟩
    rw [skipSpace?] at h ⊢
    rw [skipGap_continued]
    cases hcomment : skipComment? (skipGap s) with
    | none => simp [hcomment] at h
    | some r =>
      rw [hcomment] at h
      rw [skipComment?_continued hcomment text]
      dsimp only at h ⊢
      cases hbreak : newline? r with
      | some r' =>
        rw [hbreak] at h
        rw [newline?_append hbreak]
        exact ih h (by omega)
      | none =>
        rw [hbreak] at h
        cases h
        exact hnext fuel' (by omega)

/-- The ways to read the statements of a text. -/
theorem statementsFrom?_eq_some_iff {fuel : Nat} {s : List Char} {sts : List Statement} :
    statementsFrom? (fuel + 1) s = some sts ↔
      (skipSpace? (s.length + 1) s = some [] ∧ sts = []) ∨
      ∃ s' st r r', skipSpace? (s.length + 1) s = some s' ∧ statement? s' = some (st, r) ∧
        skipComment? (skipGap r) = some r' ∧ ((r' = [] ∧ sts = [st]) ∨
          ∃ r'' sts', newline? r' = some r'' ∧ statementsFrom? fuel r'' = some sts' ∧
            sts = st :: sts') := by
  constructor
  · intro h
    rw [statementsFrom?] at h
    split at h
    · cases h
    · rename_i hs
      cases h
      exact .inl ⟨hs, rfl⟩
    · rename_i s' _ hs
      split at h
      · cases h
      · rename_i st r hst
        split at h
        · cases h
        · rename_i hr
          cases h
          exact .inr ⟨s', st, r, [], hs, hst, hr, .inl ⟨rfl, rfl⟩⟩
        · rename_i r' _ hr
          split at h
          · rename_i r'' hbreak
            obtain ⟨sts', hsts, rfl⟩ := Option.map_eq_some_iff.1 h
            exact .inr ⟨s', st, r, r', hs, hst, hr, .inr ⟨r'', sts', hbreak, hsts, rfl⟩⟩
          · cases h
  · rintro (⟨hs, rfl⟩ | ⟨s', st, r, r', hs, hst, hr, hbehind⟩)
    · simp only [statementsFrom?, hs]
    · obtain ⟨c, s', rfl, -⟩ := head_of_statement? hst
      rcases hbehind with ⟨rfl, rfl⟩ | ⟨r'', sts', hbreak, hsts, rfl⟩
      · simp only [statementsFrom?, hs, hst, hr]
      · cases r' with
        | nil => cases hbreak
        | cons d r' => simp only [statementsFrom?, hs, hst, hr, hbreak, hsts, Option.map_some]

theorem statementsFrom?_append {fuel : Nat} {s : List Char} {sts : List Statement}
    (h : statementsFrom? fuel s = some sts) {text : List Char} {sts' : List Statement}
    (ht : Lines text sts') {fuel' : Nat} (hf : fuel + text.length < fuel') :
    statementsFrom? fuel' (s ++ '\n' :: text) = some (sts ++ sts') := by
  induction fuel generalizing fuel' s sts with
  | zero => cases h
  | succ fuel ih =>
    obtain ⟨fuel', rfl⟩ : ∃ n, fuel' = n + 1 := ⟨fuel' - 1, by omega⟩
    have hlen : s.length + 1 + text.length < (s ++ '\n' :: text).length + 1 := by simp; omega
    have hlines {n : Nat} (hn : text.length < n) := ht.statementsFrom? hn
    rcases statementsFrom?_eq_some_iff.1 h with
      ⟨hs, rfl⟩ | ⟨s', st, r, r', hs, hst, hr, hbehind⟩
    · rw [statementsFrom?_congr (skipSpace?_of_end hs ht hlen)]
      exact hlines (by omega)
    · obtain ⟨c, s', rfl, hc⟩ := head_of_statement? hst
      have hr' := skipComment?_continued hr text
      rw [← skipGap_continued] at hr'
      have hfuel : s.length + 1 ≤ (s ++ '\n' :: text).length + 1 := by omega
      have hs' := skipSpace?_continued hfuel hs hc text
      refine statementsFrom?_eq_some_iff.2
        (.inr ⟨_, st, _, _, hs', continues_statement? hst text, hr', .inr ?_⟩)
      rcases hbehind with ⟨rfl, rfl⟩ | ⟨r'', sts, hbreak, hsts, rfl⟩
      · exact ⟨text, sts', rfl, hlines (by omega), rfl⟩
      · exact ⟨_, _, newline?_append hbreak _, ih hsts (by omega), rfl⟩

/-- The statements of a text stay when further lines follow it. -/
theorem statements?_append {s : List Char} {sts : List Statement} (h : statements? s = some sts)
    {text : List Char} {sts' : List Statement} (ht : Lines text sts') :
    statements? (s ++ '\n' :: text) = some (sts ++ sts') := by
  have hlen (r : List Char) : r.length + 1 + text.length < (r ++ '\n' :: text).length + 1 := by
    simp
    omega
  unfold statements? at h
  dsimp only at h
  split at h
  · exact statementsFrom?_append h ht (hlen _)
  · rename_i hmark
    unfold statements?
    dsimp only
    split
    · rename_i heq
      obtain ⟨s', rfl, -⟩ := exists_of_continued (by decide) heq
      exact absurd rfl (hmark s')
    · exact statementsFrom?_append h ht (hlen _)

/-- **A table that is added to a document** changes nothing else: behind a text that is read, a
header of a new name, however it is written, adds an empty table of this name. -/
theorem parse?_append_header {text line name : String} {root : Entries}
    (h : parse? text = some root) (hl : Says line.toList (.header [name]))
    (hn : root.lookup name = none) :
    parse? (text ++ s!"\n{line}\n") = some (root ++ [(name, .table .header [])]) := by
  simp only [parse?, Option.bind_eq_bind, Option.bind_eq_some_iff] at h
  obtain ⟨sts, hsts, ⟨_, path⟩, hfold, ⟨⟩⟩ := h
  have hlines : Lines (line.toList ++ ['\n']) [.header [name]] := .line hl .nil
  have htext : (text ++ s!"\n{line}\n").toList =
      text.toList ++ '\n' :: (line.toList ++ ['\n']) := by simp [toString]
  rw [parse?, htext, statements?_append hsts hlines]
  simp only [Option.bind_eq_bind, Option.bind_some, List.foldlM_append, hfold]
  rw [List.foldlM_cons, add_header hn]
  rfl

end ImageRelay.Toml
