import ImageRelay.Json.Record
import ImageRelay.Proofs.Json.Values

/-!
# Reading records back

An object of written strings is read back as a record of their texts: `parse_objectText`,
`record_of_texts`.
-/

set_option autoImplicit false

namespace ImageRelay.Json

open Text.Utf8

/-! ## Objects of written strings -/

/-- The members of an object of strings with the given names and texts. -/
def Texts (fields : List (String × String)) (members : List (List Piece × Written)) : Prop :=
  members.map (fun m => (textOf? m.1, m.2.text?)) = fields.map fun f => (some f.1, some f.2)

theorem texts_of_writtenAs : ∀ {fields : List (String × String)}
    {ms : List (List Piece × Written)},
    Value.FieldsWrittenAs (fields.map fun f => (f.1, .string f.2)) ms → Texts fields ms
  | [], _, h => by
    obtain rfl : _ = [] := h
    rfl
  | f :: fields, _, h => by
    obtain ⟨ps, _, r, hps, ⟨ps', hps', rfl⟩, hr, rfl⟩ := h
    have hrest := texts_of_writtenAs hr
    rw [Texts, List.map_cons, List.map_cons, hps, Written.text?, hps', hrest]

theorem memberTexts_strings (fields : List (String × String)) :
    Value.memberTexts (fields.map fun f => (f.1, .string f.2)) =
      fields.map fun f => (f.1, quote f.2) := by
  induction fields with
  | nil => rfl
  | cons f fields ih => rw [List.map_cons, Value.memberTexts, ih, List.map_cons, Value.text]

/-- An object of strings is read back with its names and texts. -/
theorem parse_objectText (fields : List (String × String)) : ∃ ms, Texts fields ms ∧
    Written.parse (encode (objectText (fields.map fun f => (f.1, quote f.2)))) =
      some (.object ms) := by
  obtain ⟨_, hread, ms, hms, rfl⟩ :=
    Value.parse_written (.object (fields.map fun f => (f.1, .string f.2)))
  rw [Value.text, memberTexts_strings] at hread
  exact ⟨ms, texts_of_writtenAs hms, hread⟩

/-! ## Records -/

theorem Texts.names : ∀ {fields : List (String × String)} {ms : List (List Piece × Written)},
    Texts fields ms → ∃ r : Record, ms.mapM (fun (k, v) => (textOf? k).map (·, v)) = some r ∧
      r.map (fun m => (m.1, m.2.text?)) = fields.map fun f => (f.1, some f.2)
  | [], [], _ => ⟨[], rfl, rfl⟩
  | f :: fields, m :: ms, h => by
    obtain ⟨hm, hms⟩ := List.cons.inj h
    obtain ⟨hk, hv⟩ := Prod.mk.inj hm
    obtain ⟨r, hr, htexts⟩ := Texts.names hms
    refine ⟨(f.1, m.2) :: r, ?_, ?_⟩
    · simp [List.mapM_cons, hk, hr]
    · simp [hv, htexts]

/-- The record has the texts of these fields, and no other members. -/
def Record.Has (r : Record) (fields : List (String × String)) : Prop :=
  ∀ name, (r.lookup name).map Written.text? = (fields.lookup name).map some

theorem has_of_texts : ∀ {fields : List (String × String)} {r : Record},
    r.map (fun m => (m.1, m.2.text?)) = fields.map (fun f => (f.1, some f.2)) → r.Has fields
  | [], [], _, _ => rfl
  | [], _ :: _, h, _ | _ :: _, [], h, _ => by cases h
  | f :: fields, m :: r, h, name => by
    obtain ⟨hm, hr⟩ := List.cons.inj h
    obtain ⟨hk, hv⟩ := Prod.mk.inj hm
    rw [List.lookup_cons, List.lookup_cons, hk]
    split
    · exact congrArg some hv
    · exact has_of_texts hr name

theorem Record.Has.cases {r : Record} {fields : List (String × String)} (h : r.Has fields)
    (name : String) : (r.lookup name = none ∧ fields.lookup name = none) ∨
      ∃ w text, r.lookup name = some w ∧ fields.lookup name = some text ∧ w.text? = some text := by
  have hn := h name
  cases hf : fields.lookup name with
  | none => exact .inl ⟨by simpa [hf] using hn, rfl⟩
  | some text =>
    obtain ⟨w, hw, ht⟩ := Option.map_eq_some_iff.1 (hf ▸ hn)
    exact .inr ⟨w, text, hw, rfl, ht⟩

theorem Record.Has.text {r : Record} {fields : List (String × String)} (h : r.Has fields)
    (name : String) : r.text name = some ((fields.lookup name).getD "") := by
  rcases h.cases name with ⟨hr, hf⟩ | ⟨w, text, hr, hf, ht⟩
  · simp [Record.text, hr, hf]
  · simp [Record.text, hr, hf, ht]

/-- A member that is missing is none, and a text is never read as `null`. -/
theorem Record.Has.optionalText {r : Record} {fields : List (String × String)} (h : r.Has fields)
    (name : String) : r.optionalText name = some (fields.lookup name) := by
  rcases h.cases name with ⟨hr, hf⟩ | ⟨w, text, hr, hf, ht⟩
  · simp [Record.optionalText, hr, hf]
  · have hw : w.optionalText? = some (some text) := by
      cases w with
      | null => cases ht
      | _ => exact congrArg (Option.map some) ht
    simp [Record.optionalText, hr, hf, hw]

/-- A record of strings with known names, each of them given once, is read with all its texts. -/
theorem record_of_texts {fields : List (String × String)} {ms : List (List Piece × Written)}
    (h : Texts fields ms) (known : List String) (hk : ∀ f ∈ fields, f.1 ∈ known)
    (hn : (fields.map (·.1)).Nodup) :
    ∃ r, Record.ofWritten? known (.object ms) = some r ∧ r.Has fields := by
  obtain ⟨r, hr, htexts⟩ := h.names
  have hnames : r.map (·.1) = fields.map (·.1) := by
    have hfst := congrArg (List.map (·.1)) htexts
    simpa [Function.comp_def] using hfst
  have hknown : r.filter (fun f => known.contains f.1) = r := by
    refine List.filter_eq_self.2 fun m hm => ?_
    have hmem : m.1 ∈ fields.map (·.1) := hnames ▸ List.mem_map_of_mem hm
    obtain ⟨f, hf, hname⟩ := List.mem_map.1 hmem
    simpa [← hname] using hk f hf
  have honce (k : String) : r.countP (·.1 == k) ≤ 1 := by
    have hcount := List.nodup_iff_count.1 (hnames ▸ hn) k
    rwa [List.count, List.countP_map] at hcount
  refine ⟨r, ?_, has_of_texts htexts⟩
  rw [Record.ofWritten?, hr]
  simp only [hknown]
  rw [if_pos]
  simpa using fun k _ => honce k

end ImageRelay.Json
