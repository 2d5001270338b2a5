import ImageRelay.Proofs.Json.Numbers
import ImageRelay.Proofs.Json.Quoted

/-!
# Reading written values back

The text of every value is read as a written form of it (`Value.parse_written`).
What `Value.parse` reads is proper: objects are in key order, and nothing is nested too deep
(`Value.proper_of_parse`). A proper value is read back from its text if its numbers are
(`Value.parse_text`).

* `Value.Proper`: the values that a text may have, by the numbers in them and by their depth.
* `Value.WrittenAs`: the written forms of a value.
* `Reads.array`, `Reads.object`: how texts are put together that are read as a value, whatever may
  follow them. The fuel of a reader is bounded by twice the length of the text, since each level
  takes two steps and has two brackets.
-/

set_option autoImplicit false

namespace ImageRelay.Json

open Text.Utf8

/-! ## Proper values -/

/-- Objects are in key order, nothing is nested deeper than `depth`, and all numbers satisfy `p`. -/
inductive Value.Proper (p : Number → Prop) : Nat → Value → Prop
  | null (depth : Nat) : Proper p depth .null
  | bool (depth : Nat) (b : Bool) : Proper p depth (.bool b)
  | number (depth : Nat) {n : Number} (h : p n) : Proper p depth (.number n)
  | string (depth : Nat) (s : String) : Proper p depth (.string s)
  | array {depth : Nat} {items : List Value} (h : ∀ v ∈ items, Proper p depth v) :
      Proper p (depth + 1) (.array items)
  | object {depth : Nat} {fields : List (String × Value)} (hs : Keyed.Sorted fields)
      (h : ∀ f ∈ fields, Proper p depth f.2) : Proper p (depth + 1) (.object fields)

namespace Value

theorem Proper.imp₂ {p q r : Number → Prop} (hpq : ∀ n, p n → q n → r n) {depth : Nat} {v : Value}
    (h : v.Proper p depth) (h' : v.Proper q depth) : v.Proper r depth := by
  induction h with
  | null | bool | string => constructor
  | number _ h =>
    cases h' with
    | number _ h' => exact .number _ (hpq _ h h')
  | array _ ih =>
    cases h' with
    | array h' => exact .array fun v hv => ih v hv (h' v hv)
  | object hs _ ih =>
    cases h' with
    | object _ h' => exact .object hs fun f hf => ih f hf (h' f hf)

mutual

theorem proper_of_ofWritten? : ∀ {depth : Nat} {w : Written} {v : Value},
    ofWritten? depth w = some v → v.Proper Number.Fits depth
  | depth, .null, v, h => by
    simp only [ofWritten?, Option.some.injEq] at h
    exact h ▸ .null depth
  | depth, .bool b, v, h => by
    simp only [ofWritten?, Option.some.injEq] at h
    exact h ▸ .bool depth b
  | depth, .number n, v, h => by
    simp only [ofWritten?, Option.map_eq_some_iff] at h
    obtain ⟨n, hn, rfl⟩ := h
    exact .number depth (Number.fits_of_number? hn)
  | depth, .string s, v, h => by
    simp only [ofWritten?, Option.map_eq_some_iff] at h
    obtain ⟨s, -, rfl⟩ := h
    exact .string depth s
  | 0, .array _, v, h | 0, .object _, v, h => by simp [ofWritten?] at h
  | depth + 1, .array items, v, h => by
    simp only [ofWritten?, Option.map_eq_some_iff] at h
    obtain ⟨items, hitems, rfl⟩ := h
    exact .array (proper_of_ofItems? hitems)
  | depth + 1, .object members, v, h => by
    simp only [ofWritten?, Option.map_eq_some_iff] at h
    obtain ⟨fields, hfields, rfl⟩ := h
    exact .object (Keyed.sorted_ofList fields) fun f hf =>
      proper_of_ofMembers? hfields f (Keyed.mem_of_mem_ofList hf)

theorem proper_of_ofItems? : ∀ {depth : Nat} {ws : List Written} {vs : List Value},
    ofItems? depth ws = some vs → ∀ v ∈ vs, v.Proper Number.Fits depth
  | depth, [], vs, h => by
    simp only [ofItems?, Option.some.injEq] at h
    simp [← h]
  | depth, w :: ws, vs, h => by
    rw [ofItems?] at h
    split at h
    · rename_i hw hws
      cases h
      exact List.forall_mem_cons.2 ⟨proper_of_ofWritten? hw, proper_of_ofItems? hws⟩
    · cases h

theorem proper_of_ofMembers? : ∀ {depth : Nat} {ms : List (List Piece × Written)}
    {fields : List (String × Value)}, ofMembers? depth ms = some fields →
      ∀ f ∈ fields, f.2.Proper Number.Fits depth
  | depth, [], fields, h => by
    simp only [ofMembers?, Option.some.injEq] at h
    simp [← h]
  | depth, (k, w) :: ms, fields, h => by
    rw [ofMembers?] at h
    split at h
    · rename_i hw hms
      cases h
      exact List.forall_mem_cons.2 ⟨proper_of_ofWritten? hw, proper_of_ofMembers? hms⟩
    · cases h

end

theorem proper_of_parse {s : List UInt8} {v : Value} (h : parse s = some v) :
    v.Proper Number.Fits maxDepth := by
  obtain ⟨w, -, hw⟩ := Option.bind_eq_some_iff.1 h
  exact proper_of_ofWritten? hw

end Value

/-! ## Written forms -/

mutual

/-- The value is written in this form: its texts in some pieces, and its numbers as their texts. -/
def Value.WrittenAs : Value → Written → Prop
  | .null, w => w = .null
  | .bool b, w => w = .bool b
  | .number n, w => ∃ m, Written.numeral (encode n.text) = some (m, []) ∧ w = .number m
  | .string s, w => ∃ ps, textOf? ps = some s ∧ w = .string ps
  | .array items, w => ∃ ws, Value.ItemsWrittenAs items ws ∧ w = .array ws
  | .object fields, w => ∃ ms, Value.FieldsWrittenAs fields ms ∧ w = .object ms

/-- The items are written in these forms. -/
def Value.ItemsWrittenAs : List Value → List Written → Prop
  | [], ws => ws = []
  | v :: vs, ws => ∃ w r, v.WrittenAs w ∧ Value.ItemsWrittenAs vs r ∧ ws = w :: r

/-- The fields are written as these members. -/
def Value.FieldsWrittenAs : List (String × Value) → List (List Piece × Written) → Prop
  | [], ms => ms = []
  | (k, v) :: fields, ms => ∃ ps w r, textOf? ps = some k ∧ v.WrittenAs w ∧
      Value.FieldsWrittenAs fields r ∧ ms = (ps, w) :: r

end

namespace Value

theorem ofItems?_of_writtenAs {depth : Nat} {items : List Value}
    (h : ∀ v ∈ items, ∀ w, v.WrittenAs w → ofWritten? depth w = some v) {ws : List Written}
    (hw : ItemsWrittenAs items ws) : ofItems? depth ws = some items := by
  induction items generalizing ws with
  | nil =>
    obtain rfl : ws = [] := hw
    rfl
  | cons v vs ih =>
    obtain ⟨w, r, hv, hr, rfl⟩ := hw
    rw [ofItems?, h v List.mem_cons_self w hv,
      ih (fun v' hv' => h v' (List.mem_cons_of_mem _ hv')) hr]

theorem ofMembers?_of_writtenAs {depth : Nat} {fields : List (String × Value)}
    (h : ∀ f ∈ fields, ∀ w, f.2.WrittenAs w → ofWritten? depth w = some f.2)
    {ms : List (List Piece × Written)} (hm : FieldsWrittenAs fields ms) :
    ofMembers? depth ms = some fields := by
  induction fields generalizing ms with
  | nil =>
    obtain rfl : ms = [] := hm
    rfl
  | cons f fields ih =>
    obtain ⟨ps, w, r, hps, hv, hr, rfl⟩ := hm
    rw [ofMembers?, hps, h f List.mem_cons_self w hv,
      ih (fun f' hf' => h f' (List.mem_cons_of_mem _ hf')) hr]

/-- A proper value whose numbers are read back is what its written form means. -/
theorem ofWritten?_of_writtenAs {depth : Nat} {v : Value} (h : v.Proper Number.ReadsBack depth) :
    ∀ w, v.WrittenAs w → ofWritten? depth w = some v := by
  induction h with
  | null =>
    rintro _ rfl
    rw [ofWritten?]
  | bool _ b =>
    rintro _ rfl
    rw [ofWritten?]
  | number _ h =>
    rintro _ ⟨m, hm, rfl⟩
    obtain ⟨m', hm', hn⟩ := h
    obtain rfl : m = m' := by simpa [hm] using hm'
    rw [ofWritten?, hn]
    rfl
  | string _ s =>
    rintro _ ⟨ps, hps, rfl⟩
    rw [ofWritten?, hps]
    rfl
  | array _ ih =>
    rintro _ ⟨ws, hws, rfl⟩
    rw [ofWritten?, ofItems?_of_writtenAs ih hws]
    rfl
  | object hs _ ih =>
    rintro _ ⟨ms, hms, rfl⟩
    rw [ofWritten?, ofMembers?_of_writtenAs ih hms, Option.map_some, Keyed.ofList_eq_self hs]

end Value

/-! ## Texts that are read as a value -/

/-- The text is read as a written form of the value, whatever may follow it; it begins neither with
a blank nor as an array ends. -/
structure Reads (text : List UInt8) (v : Value) : Prop where
  start : ∃ b body, text = b :: body ∧ Written.isSpace b = false ∧ (b == Written.byteOf ']') = false
  read (rest : List UInt8) (hr : Follows rest) (fuel : Nat) (hf : 2 * text.length ≤ fuel + 1) :
    ∃ w, Written.value fuel (text ++ rest) = some (w, rest) ∧ v.WrittenAs w

theorem encode_intercalate_cons (s t : String) (texts : List String) :
    encode (",".intercalate (s :: t :: texts)) =
      encode s ++ 0x2C :: encode (",".intercalate (t :: texts)) := by
  have hcomma : encode "," = [0x2C] := rfl
  rw [String.intercalate_cons_cons, encode_append, encode_append, hcomma, List.append_assoc]
  rfl

theorem encode_intercalate_start (s : String) (texts : List String) :
    ∃ rest, encode (",".intercalate (s :: texts)) = encode s ++ rest := by
  cases texts with
  | nil => exact ⟨[], by rw [String.intercalate_singleton, List.append_nil]⟩
  | cons t texts => exact ⟨_, encode_intercalate_cons s t texts⟩

namespace Reads

theorem length_pos {text : List UInt8} {v : Value} (h : Reads text v) : 0 < text.length := by
  obtain ⟨b, body, rfl, -⟩ := h.start
  exact Nat.succ_pos _

/-! ## Words, numbers and strings -/

/-- Whatever is no array and no object is read in one step. -/
theorem of_step {text : List UInt8} {v : Value}
    (hs : ∃ b body, text = b :: body ∧ Written.isSpace b = false ∧
      (b == Written.byteOf ']') = false)
    (hr : ∀ rest, Follows rest → ∀ fuel, ∃ w,
      Written.value (fuel + 1) (text ++ rest) = some (w, rest) ∧
        v.WrittenAs w) : Reads text v := by
  refine ⟨hs, fun rest hrest fuel hf => ?_⟩
  obtain ⟨b, body, rfl, -⟩ := hs
  rw [List.length_cons] at hf
  obtain ⟨fuel, rfl⟩ := Nat.exists_eq_succ_of_ne_zero (n := fuel) (by omega)
  exact hr rest hrest fuel

theorem null : Reads (encode Value.null.text) .null :=
  of_step ⟨_, _, rfl, rfl, rfl⟩ fun _ _ _ => ⟨.null, rfl, rfl⟩

theorem bool (b : Bool) : Reads (encode (Value.bool b).text) (.bool b) := by
  cases b with
  | false => exact of_step ⟨_, _, rfl, rfl, rfl⟩ fun _ _ _ => ⟨.bool false, rfl, rfl⟩
  | true => exact of_step ⟨_, _, rfl, rfl, rfl⟩ fun _ _ _ => ⟨.bool true, rfl, rfl⟩

theorem string (s : String) : Reads (encode (Value.string s).text) (.string s) := by
  refine of_step ?_ fun rest _ fuel => ?_
  · obtain ⟨body, -, hbody, -⟩ := stringPieces_quote s []
    exact ⟨0x22, body, hbody, rfl, rfl⟩
  · obtain ⟨ps, hps, hread⟩ := value_quote s fuel rest
    exact ⟨.string ps, hread, ps, hps, rfl⟩

theorem number (n : Number) : Reads (encode (Value.number n).text) (.number n) := by
  obtain ⟨w, hread⟩ := n.exists_numeral
  obtain ⟨b, body, hbody, hb⟩ := Written.numeral_start hread
  -- a sign or a digit is none of the bytes that other values begin with
  have hne (x : UInt8) (hsign : x ≠ Written.byteOf '-') (hdigit : Written.isDigit x = false) :
      (b == x) = false := by
    rw [beq_eq_false_iff_ne]
    rintro rfl
    rcases hb with hb | hb
    · exact hsign hb
    · rw [hdigit] at hb
      cases hb
  have hspace : Written.isSpace b = false := by
    rw [Written.isSpace, hne 0x20 (by decide) rfl, hne 0x0A (by decide) rfl,
      hne 0x0D (by decide) rfl, hne 0x09 (by decide) rfl]
    rfl
  refine of_step ⟨b, body, hbody, hspace, hne _ (by decide) (by decide)⟩ fun rest hr fuel => ?_
  refine ⟨.number w, ?_, w, hread, rfl⟩
  have hnumeral : Written.numeral (b :: body ++ rest) = some (w, rest) := by
    rw [← hbody, Written.numeral_append hr, hread]
    rfl
  rw [List.cons_append] at hnumeral
  rw [Value.text, hbody, List.cons_append, Written.value, skip_cons hspace]
  simp only [hne 0x22 (by decide) rfl, hne (Written.byteOf '[') (by decide) rfl,
    hne 0x7B (by decide) rfl, hne (Written.byteOf 'n') (by decide) rfl,
    hne (Written.byteOf 't') (by decide) rfl, hne (Written.byteOf 'f') (by decide) rfl,
    Bool.false_eq_true, if_false, hnumeral]
  rfl

/-! ## Arrays -/

/-- The items up to the closing bracket are read. -/
theorem items {v : Value} {vs : List Value}
    (h : ∀ v' ∈ v :: vs, Reads (encode v'.text) v') (rest : List UInt8) (fuel : Nat)
    (hf : 2 * (encode (",".intercalate (Value.itemTexts (v :: vs)))).length ≤ fuel) :
    ∃ ws, Value.ItemsWrittenAs (v :: vs) ws ∧
      Written.items fuel (encode (",".intercalate (Value.itemTexts (v :: vs))) ++ 0x5D :: rest) =
        some (ws, rest) := by
  -- an item takes a step and leaves two for each byte of the others: it has a byte, and a comma
  induction vs generalizing v fuel with
  | nil =>
    have hv := h v List.mem_cons_self
    have hpos := hv.length_pos
    rw [Value.itemTexts, Value.itemTexts, String.intercalate_singleton] at hf ⊢
    obtain ⟨fuel, rfl⟩ := Nat.exists_eq_succ_of_ne_zero (n := fuel) (by omega)
    obtain ⟨w, hread, hw⟩ := hv.read (0x5D :: rest) (follows_cons (by simp) _) fuel (by omega)
    refine ⟨[w], ⟨w, [], hw, rfl, rfl⟩, ?_⟩
    rw [Written.items, hread]
    dsimp only
    rw [skip_cons rfl]
    rfl
  | cons v' vs ih =>
    have hv := h v List.mem_cons_self
    have htext : encode (",".intercalate (Value.itemTexts (v :: v' :: vs))) = encode v.text ++
        0x2C :: encode (",".intercalate (Value.itemTexts (v' :: vs))) :=
      encode_intercalate_cons v.text v'.text (Value.itemTexts vs)
    rw [htext, List.length_append, List.length_cons] at hf
    obtain ⟨fuel, rfl⟩ := Nat.exists_eq_succ_of_ne_zero (n := fuel) (by omega)
    obtain ⟨ws, hws, hrest⟩ :=
      ih (fun v'' hv'' => h v'' (List.mem_cons_of_mem _ hv'')) fuel (by omega)
    obtain ⟨w, hread, hw⟩ := hv.read
      (0x2C :: (encode (",".intercalate (Value.itemTexts (v' :: vs))) ++ 0x5D :: rest))
      (follows_cons (by simp) _) fuel (by omega)
    refine ⟨w :: ws, ⟨w, ws, hw, hws, rfl⟩, ?_⟩
    rw [htext, List.append_assoc, List.cons_append, Written.items, hread]
    dsimp only
    rw [skip_cons rfl]
    dsimp only
    rw [if_pos (by decide), hrest]
    rfl

theorem array {items : List Value} (h : ∀ v ∈ items, Reads (encode v.text) v) :
    Reads (encode (Value.array items).text) (.array items) := by
  have htext : encode (Value.array items).text =
      0x5B :: (encode (",".intercalate (Value.itemTexts items)) ++ [0x5D]) := by
    have hopen : encode "[" = [0x5B] := rfl
    have hclose : encode "]" = [0x5D] := rfl
    rw [Value.text, encode_append, encode_append, hopen, hclose]
    rfl
  refine ⟨⟨_, _, htext, rfl, rfl⟩, fun rest _ fuel hf => ?_⟩
  rw [htext] at hf ⊢
  simp only [List.length_cons, List.length_append, List.length_nil] at hf
  obtain ⟨fuel, rfl⟩ := Nat.exists_eq_succ_of_ne_zero (n := fuel) (by omega)
  rw [List.cons_append, List.append_assoc, List.singleton_append, Written.value, skip_cons rfl]
  cases items with
  | nil => exact ⟨.array [], rfl, [], rfl, rfl⟩
  | cons v vs =>
    obtain ⟨ws, hws, hread⟩ := Reads.items h rest fuel (by omega)
    obtain ⟨b, body, hbody, hspace, hend⟩ : ∃ b body,
        encode (",".intercalate (Value.itemTexts (v :: vs))) = b :: body ∧
          Written.isSpace b = false ∧ (b == Written.byteOf ']') = false := by
      obtain ⟨b, body, hbody, hb⟩ := (h v List.mem_cons_self).start
      obtain ⟨more, hmore⟩ := encode_intercalate_start v.text (Value.itemTexts vs)
      exact ⟨b, body ++ more, by rw [Value.itemTexts, hmore, hbody, List.cons_append], hb⟩
    refine ⟨.array ws, ?_, ws, hws, rfl⟩
    rw [hbody, List.cons_append] at hread ⊢
    dsimp only
    rw [skip_cons hspace]
    dsimp only
    rw [if_neg (by decide), if_pos (by decide), if_neg (by simp [hend]), hread]
    rfl

/-! ## Objects -/

/-- The text of a member. -/
def memberOf (f : String × Value) : String := quote f.1 ++ ":" ++ f.2.text

theorem length_le_memberOf (f : String × Value) :
    (encode f.2.text).length ≤ (encode (memberOf f)).length := by
  rw [memberOf, encode_append, List.length_append]
  omega

theorem map_memberTexts (fields : List (String × Value)) :
    (Value.memberTexts fields).map (fun (k, v) => quote k ++ ":" ++ v) = fields.map memberOf := by
  induction fields with
  | nil => rfl
  | cons f fields ih => rw [Value.memberTexts, List.map_cons, List.map_cons, ih]; rfl

/-- A member is read up to what follows it. -/
theorem member {f : String × Value} (h : Reads (encode f.2.text) f.2) (b : UInt8)
    (hb : b = 0x2C ∨ b = 0x5D ∨ b = 0x7D) (rest : List UInt8) (fuel : Nat)
    (hf : 2 * (encode (memberOf f)).length ≤ fuel + 1) : ∃ k w, textOf? k = some f.1 ∧
      f.2.WrittenAs w ∧
      Written.members (fuel + 1) (encode (memberOf f) ++ b :: rest) =
        if b == Written.byteOf ',' then
          (Written.members fuel rest).map fun (l, r) => ((k, w) :: l, r)
        else if b == 0x7D then some ([(k, w)], rest) else none := by
  have hspace : Written.isSpace b = false := by rcases hb with rfl | rfl | rfl <;> rfl
  obtain ⟨key, k, hkey, hk, hks⟩ := stringPieces_quote f.1
    (0x3A :: (encode f.2.text ++ b :: rest))
  have hmember : encode (memberOf f) = 0x22 :: (key ++ 0x3A :: encode f.2.text) := by
    have hcolon : encode ":" = [0x3A] := rfl
    rw [memberOf, encode_append, encode_append, hkey, hcolon]
    simp
  rw [hmember] at hf ⊢
  simp only [List.length_cons, List.length_append] at hf
  obtain ⟨w, hread, hw⟩ := h.read (b :: rest) (follows_cons hb rest) fuel (by omega)
  refine ⟨k, w, hk, hw, ?_⟩
  have htext : 0x22 :: (key ++ 0x3A :: encode f.2.text) ++ b :: rest =
      0x22 :: (key ++ 0x3A :: (encode f.2.text ++ b :: rest)) := by simp
  rw [htext, Written.members, skip_cons rfl]
  dsimp only
  rw [if_pos (by decide), hks]
  dsimp only
  rw [skip_cons rfl]
  dsimp only
  rw [if_pos (by decide), hread]
  dsimp only
  rw [skip_cons hspace]

/-- The members up to the closing brace are read. -/
theorem members {f : String × Value} {fields : List (String × Value)}
    (h : ∀ f' ∈ f :: fields, Reads (encode f'.2.text) f'.2) (rest : List UInt8) (fuel : Nat)
    (hf : 2 * (encode (",".intercalate ((f :: fields).map memberOf))).length ≤ fuel) :
    ∃ ms, Value.FieldsWrittenAs (f :: fields) ms ∧
      Written.members fuel (encode (",".intercalate ((f :: fields).map memberOf)) ++ 0x7D :: rest) =
        some (ms, rest) := by
  induction fields generalizing f fuel with
  | nil =>
    have hm := h f List.mem_cons_self
    have hpos := hm.length_pos
    rw [List.map_singleton, String.intercalate_singleton] at hf ⊢
    have hle := length_le_memberOf f
    obtain ⟨fuel, rfl⟩ := Nat.exists_eq_succ_of_ne_zero (n := fuel) (by omega)
    obtain ⟨k, w, hk, hw, hread⟩ := hm.member 0x7D (by simp) rest fuel (by omega)
    refine ⟨[(k, w)], ⟨k, w, [], hk, hw, rfl, rfl⟩, ?_⟩
    rw [hread, if_neg (by decide), if_pos (by decide)]
  | cons f' fields ih =>
    have hm := h f List.mem_cons_self
    have htext : encode (",".intercalate ((f :: f' :: fields).map memberOf)) =
        encode (memberOf f) ++ 0x2C :: encode (",".intercalate ((f' :: fields).map memberOf)) :=
      encode_intercalate_cons (memberOf f) (memberOf f') (fields.map memberOf)
    rw [htext, List.length_append, List.length_cons] at hf
    obtain ⟨fuel, rfl⟩ := Nat.exists_eq_succ_of_ne_zero (n := fuel) (by omega)
    obtain ⟨ms, hms, hrest⟩ :=
      ih (fun f'' hf'' => h f'' (List.mem_cons_of_mem _ hf'')) fuel (by omega)
    obtain ⟨k, w, hk, hw, hread⟩ := hm.member 0x2C (by simp)
      (encode (",".intercalate ((f' :: fields).map memberOf)) ++ 0x7D :: rest) fuel (by omega)
    refine ⟨(k, w) :: ms, ⟨k, w, ms, hk, hw, hms, rfl⟩, ?_⟩
    rw [htext, List.append_assoc, List.cons_append, hread, if_pos (by decide), hrest]
    rfl

theorem object {fields : List (String × Value)}
    (h : ∀ f ∈ fields, Reads (encode f.2.text) f.2) :
    Reads (encode (Value.object fields).text) (.object fields) := by
  have htext : encode (Value.object fields).text =
      0x7B :: (encode (",".intercalate (fields.map memberOf)) ++ [0x7D]) := by
    have hopen : encode "\x7b" = [0x7B] := rfl
    have hclose : encode "\x7d" = [0x7D] := rfl
    rw [Value.text, objectText, map_memberTexts, encode_append, encode_append, hopen, hclose]
    rfl
  refine ⟨⟨_, _, htext, rfl, rfl⟩, fun rest _ fuel hf => ?_⟩
  rw [htext] at hf ⊢
  simp only [List.length_cons, List.length_append, List.length_nil] at hf
  obtain ⟨fuel, rfl⟩ := Nat.exists_eq_succ_of_ne_zero (n := fuel) (by omega)
  rw [List.cons_append, List.append_assoc, List.singleton_append, Written.value, skip_cons rfl]
  cases fields with
  | nil => exact ⟨.object [], rfl, [], rfl, rfl⟩
  | cons f fields =>
    obtain ⟨ms, hms, hread⟩ := Reads.members h rest fuel (by omega)
    obtain ⟨body, hbody⟩ : ∃ body,
        encode (",".intercalate ((f :: fields).map memberOf)) = 0x22 :: body := by
      obtain ⟨more, hmore⟩ := encode_intercalate_start (memberOf f) (fields.map memberOf)
      obtain ⟨key, -, hkey, -⟩ := stringPieces_quote f.1 []
      rw [List.map_cons, hmore, memberOf, encode_append, encode_append, hkey]
      exact ⟨_, rfl⟩
    refine ⟨.object ms, ?_, ms, hms, rfl⟩
    rw [hbody, List.cons_append] at hread ⊢
    dsimp only
    rw [skip_cons rfl]
    dsimp only
    rw [if_neg (by decide), if_neg (by decide), if_pos (by decide), if_neg (by decide), hread]
    rfl

end Reads

/-! ## Texts of values -/

namespace Value

/-- The text of a value is read as a written form of it. -/
theorem reads_text : ∀ v : Value, Reads (encode v.text) v
  | .null => .null
  | .bool b => .bool b
  | .number n => .number n
  | .string s => .string s
  | .array items => .array fun v _ => reads_text v
  | .object fields => .object fun f _ => reads_text f.2
decreasing_by
  · have hlt := List.sizeOf_lt_of_mem ‹v ∈ items›
    rw [array.sizeOf_spec]
    omega
  · have hlt := List.sizeOf_lt_of_mem ‹f ∈ fields›
    obtain ⟨k, v⟩ := f
    rw [object.sizeOf_spec]
    rw [Prod.mk.sizeOf_spec] at hlt
    dsimp only
    omega

theorem parse_written (v : Value) : ∃ w, Written.parse (encode v.text) = some w ∧ v.WrittenAs w := by
  obtain ⟨w, hread, hw⟩ :=
    (reads_text v).read [] follows_nil (2 * (encode v.text).length + 2) (by omega)
  rw [List.append_nil] at hread
  refine ⟨w, ?_, hw⟩
  rw [Written.parse, hread]
  rfl

/-- A proper value whose numbers are read back is read back from its text. -/
theorem parse_text {v : Value} (h : v.Proper Number.ReadsBack maxDepth) :
    parse (encode v.text) = some v := by
  obtain ⟨w, hread, hw⟩ := parse_written v
  rw [parse, hread]
  exact ofWritten?_of_writtenAs h w hw

end Value

end ImageRelay.Json
