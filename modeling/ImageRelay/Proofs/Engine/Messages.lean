import ImageRelay.Engine.Message
import ImageRelay.Proofs.Json.Records
import ImageRelay.Proofs.Text.Lines

/-!
# Reading messages back

A message is written as an object of its fields, without those it does not have
(`Message.json_eq`). `ofLine_json`: the line is read back as the message, whatever the texts in it
are, since it begins and ends with a brace and is a JSON message as it stands.

A line that is no JSON message stands for an error, the status of a layer or a status
(`Message.Stands`). `ofLine_text`: what is shown of it is read back as the same message, since no
form is taken for another one.
-/

set_option autoImplicit false

namespace ImageRelay

namespace Message

/-- The fields that are written: the status, and what else there is. -/
def fields (m : Message) : List (String × String) :=
  m.id.toList.map (("id", ·)) ++ [("status", m.status)] ++ m.progress.toList.map (("progress", ·)) ++
    m.error.toList.map (("error", ·))

theorem json_eq (m : Message) :
    m.json = Json.objectText (m.fields.map fun f => (f.1, Json.quote f.2)) := by
  obtain ⟨id, status, progress, error⟩ := m
  cases id <;> cases progress <;> cases error <;> rfl

/-- The fields of a message are those that are read, each of them at most once. -/
theorem names_sublist (m : Message) :
    (m.fields.map (·.1)).Sublist ["id", "status", "progress", "error"] := by
  obtain ⟨id, status, progress, error⟩ := m
  cases id <;> cases progress <;> cases error <;> simp [fields]

theorem lookup_fields (m : Message) : m.fields.lookup "id" = m.id ∧
    m.fields.lookup "status" = some m.status ∧ m.fields.lookup "progress" = m.progress ∧
    m.fields.lookup "error" = m.error := by
  obtain ⟨id, status, progress, error⟩ := m
  cases id <;> cases progress <;> cases error <;> exact ⟨rfl, rfl, rfl, rfl⟩

theorem ofJson?_json (m : Message) : ofJson? m.json = some m := by
  obtain ⟨ms, hms, hparse⟩ := Json.parse_objectText m.fields
  obtain ⟨r, hr, hhas⟩ := Json.record_of_texts hms ["id", "status", "progress", "error"]
    (fun f hf => m.names_sublist.mem (List.mem_map_of_mem hf))
    (m.names_sublist.nodup (by decide))
  obtain ⟨hid, hstatus, hprogress, herror⟩ := m.lookup_fields
  rw [← m.json_eq] at hparse
  simp [ofJson?, hparse, hr, hhas.text, hhas.optionalText, hid, hstatus, hprogress, herror]

/-- An object begins and ends with a brace. -/
theorem toList_json (m : Message) : ∃ body, m.json.toList = '\x7b' :: (body ++ ['\x7d']) := by
  rw [json_eq, Json.objectText]
  rw [String.toList_append, String.toList_append, List.append_assoc]
  exact ⟨_, rfl⟩

/-- **Messages**: the JSON text of a message is a line that is read back as this message. -/
theorem ofLine_json (m : Message) : ofLine m.json = m := by
  obtain ⟨body, hbody⟩ := m.toList_json
  have hhead : m.json.toList.head? = some '\x7b' := by rw [hbody]; rfl
  have hlast : m.json.toList.getLast? = some '\x7d' := by
    rw [hbody, ← List.cons_append, List.getLast?_concat]
  have htrim : Text.trim m.json.toList = m.json.toList := by
    refine Text.trim_eq_self (fun c hc => ?_) fun c hc => ?_
    · rw [hhead] at hc
      cases hc
      rfl
    · rw [hlast] at hc
      cases hc
      rfl
  simp only [ofLine, htrim, hhead, String.ofList_toList, m.ofJson?_json]
  rfl

/-! ## Lines that are shown again -/

/-- The JSON message that a line is taken as, if it begins with a brace and is one. -/
def jsonOf? (line : String) : Option Message :=
  let line := Text.trim line.toList
  if line.head? == some '\x7b' then ofJson? (String.ofList line) else none

theorem ofLine_eq (line : String) :
    ofLine line = (jsonOf? line).getD (ofPlainLine (Text.trim line.toList)) := by
  unfold ofLine jsonOf?
  dsimp only
  split
  · rfl
  · rfl

/-- A line that begins with no brace is taken as no JSON message. -/
theorem ofLine_of_head {line : String} {s : List Char} (hs : line.toList = s)
    (ht : Text.trim s = s) (hc : s.head? ≠ some '\x7b') :
    jsonOf? line = none ∧ ofLine line = ofPlainLine s := by
  have hnone : jsonOf? line = none := by
    rw [jsonOf?, hs, ht]
    simp [hc]
  exact ⟨hnone, by rw [ofLine_eq, hnone, hs, ht]; rfl⟩

theorem splitColonSpace_eq_some {l id status : List Char}
    (h : splitColonSpace l = some (id, status)) : l = id ++ ':' :: ' ' :: status := by
  fun_induction splitColonSpace l generalizing id with
  | case1 => cases h
  | case2 r =>
    cases h
    rfl
  | case3 c r _ ih =>
    obtain ⟨⟨b, e⟩, hr, heq⟩ := Option.map_eq_some_iff.1 h
    cases heq
    rw [ih hr, List.cons_append]

theorem splitColonSpace_append {id : List Char} (h : ':' ∉ id) (status : List Char) :
    splitColonSpace (id ++ ':' :: ' ' :: status) = some (id, status) := by
  induction id with
  | nil => rfl
  | cons c r ih =>
    obtain ⟨hc, hr⟩ := not_or.1 (mt List.mem_cons.2 h)
    rw [List.cons_append, splitColonSpace]
    · rw [ih hr]
      rfl
    · rintro r' rfl
      exact absurd rfl hc

/-- What a line that is no JSON message stands for: an error, the status of a layer, or a status
that is the line itself. -/
inductive Stands (line : List Char) : Message → Prop
  | error {e : List Char} (he : Text.Tight e) : Stands line (ofError (String.ofList e))
  | layer {id status : List Char} (hid : isLayerId id = true) (hs : Text.Tight status) :
      Stands line { id := some (String.ofList id), status := String.ofList status }
  | status : Stands line (ofStatus (String.ofList line))

theorem tight_errorOf {l : List Char} (hl : Text.Tight l) : Text.Tight (errorOf l) := by
  unfold errorOf
  split
  · rename_i rest _
    dsimp only
    split
    · exact hl
    · rename_i hne
      exact Text.tight_trim (by simpa using hne)
  · exact hl

/-- Behind a colon and a space a line does not end in blanks. -/
theorem tight_status {l id status : List Char} (hl : Text.trim l = l)
    (h : splitColonSpace l = some (id, status)) : Text.Tight (Text.trim status) := by
  refine Text.tight_trim fun hblank => ?_
  have hall := Text.trim_eq_nil_iff.1 hblank
  have hlast : l.getLast? = (' ' :: status).getLast? := by
    rw [splitColonSpace_eq_some h, List.append_cons, List.getLast?_append_of_ne_nil _ (by simp)]
  have hx := List.getLast?_eq_some_getLast (List.cons_ne_nil ' ' status)
  -- the last character would be a blank
  have hno := Text.not_isBlank_getLast?_trim l _ (by rw [hl, hlast]; exact hx)
  rcases List.mem_cons.1 (List.getLast_mem (List.cons_ne_nil ' ' status)) with he | he
  · rw [he] at hno
    cases hno
  · rw [hall _ he] at hno
    cases hno

theorem stands_ofPlainLine {l : List Char} (hl : Text.trim l = l) : Stands l (ofPlainLine l) := by
  unfold ofPlainLine
  split
  · rename_i he
    have hne : l ≠ [] := by
      rintro rfl
      cases he
    exact .error (tight_errorOf ⟨hne, hl⟩)
  · split
    · rename_i id status hcut
      split
      · rename_i hid
        exact .layer hid (tight_status hl hcut)
      · exact .status
    · exact .status

/-- A character of a layer id. -/
def isLayerChar (c : Char) : Bool := c.isDigit || ('a' ≤ c && c ≤ 'f')

theorem isLayerChar_bound : ∀ n < 103, isLayerChar (Char.ofNat n) = true →
    Text.isBlank (Char.ofNat n) = false ∧ Char.ofNat n ≠ '\x7b' ∧ Char.ofNat n ≠ ':' ∧
      (Char.ofNat n).toLower ≠ 'r' := by
  decide

theorem of_isLayerChar {c : Char} (h : isLayerChar c = true) : Text.isBlank c = false ∧
    c ≠ '\x7b' ∧ c ≠ ':' ∧ c.toLower ≠ 'r' := by
  have hlt : c.toNat < 103 := by
    simp only [isLayerChar, Char.isDigit, Bool.or_eq_true, Bool.and_eq_true, decide_eq_true_eq] at h
    rcases h with ⟨-, h⟩ | ⟨-, h⟩
    · exact Nat.lt_of_le_of_lt h (by decide)
    · exact Nat.lt_of_le_of_lt h (by decide)
  have hc := isLayerChar_bound c.toNat hlt
  rw [Char.ofNat_toNat] at hc
  exact hc h

/-- A layer id begins with two of its characters, and has no others. -/
theorem exists_of_isLayerId {id : List Char} (h : isLayerId id = true) :
    ∃ c d r, id = c :: d :: r ∧ ∀ x ∈ id, isLayerChar x = true := by
  simp only [isLayerId, Bool.and_eq_true, decide_eq_true_eq] at h
  obtain ⟨⟨hlow, -⟩, hall⟩ := h
  match id, hlow with
  | c :: d :: r, _ => exact ⟨c, d, r, rfl, List.all_eq_true.1 hall⟩

theorem toList_text_ofError (e : List Char) : (ofError (String.ofList e)).text.toList =
    ['E', 'R', 'R', 'O', 'R', ':', ' '] ++ e := by
  simp [text, ofError, toString]

theorem toList_text_layer (id status : List Char) :
    ({ id := some (String.ofList id), status := String.ofList status } : Message).text.toList =
      id ++ ':' :: ' ' :: status := by
  simp [text, toString]

theorem ofLine_text_error {e : List Char} (he : Text.Tight e) :
    jsonOf? (ofError (String.ofList e)).text = none ∧
      ofLine (ofError (String.ofList e)).text = ofError (String.ofList e) := by
  obtain ⟨hnone, hline⟩ := ofLine_of_head (toList_text_ofError e)
    (he.append (by decide) ['R', 'R', 'O', 'R', ':', ' ']) (by simp)
  have herror : errorOf (['E', 'R', 'R', 'O', 'R', ':', ' '] ++ e) = e := by
    have hcut : Text.splitOnce ':' (['E', 'R', 'R', 'O', 'R', ':', ' '] ++ e) =
        some (['E', 'R', 'R', 'O', 'R'], ' ' :: e) := rfl
    rw [errorOf, hcut]
    dsimp only
    rw [Text.trim_cons (by decide), he.trim_eq, if_neg (by simpa using he.ne_nil)]
  have hword : isErrorLine (['E', 'R', 'R', 'O', 'R', ':', ' '] ++ e) = true := by
    simp [isErrorLine]
  refine ⟨hnone, ?_⟩
  rw [hline, ofPlainLine, if_pos hword, herror]

/-- The second character of a layer id is not that of the word of an error. -/
theorem not_isErrorLine {c d : Char} (hd : d.toLower ≠ 'r') (r : List Char) :
    isErrorLine (c :: d :: r) = false := by
  have hword : "error".toList = ['e', 'r', 'r', 'o', 'r'] := by simp
  simp [isErrorLine, hword, List.isPrefixOf, Ne.symm hd]

theorem ofLine_text_layer {id status : List Char} (hid : isLayerId id = true)
    (hs : Text.Tight status) :
    let m : Message := { id := some (String.ofList id), status := String.ofList status }
    jsonOf? m.text = none ∧ ofLine m.text = m := by
  intro m
  have htext : m.text.toList = id ++ ':' :: ' ' :: status := toList_text_layer id status
  obtain ⟨c, d, r, rfl, hall⟩ := exists_of_isLayerId hid
  obtain ⟨hblank, hbrace, -, -⟩ := of_isLayerChar (hall c (by simp))
  obtain ⟨-, -, -, hd⟩ := of_isLayerChar (hall d (by simp))
  have hcolon : ':' ∉ c :: d :: r := fun h => (of_isLayerChar (hall _ h)).2.2.1 rfl
  have htrim := hs.append hblank (d :: r ++ [':', ' '])
  rw [List.append_assoc, ← List.cons_append] at htrim
  obtain ⟨hnone, hline⟩ := ofLine_of_head htext htrim (by simp [hbrace])
  refine ⟨hnone, ?_⟩
  rw [hline, ofPlainLine, splitColonSpace_append hcolon, List.cons_append, List.cons_append,
    not_isErrorLine hd, if_neg Bool.false_ne_true]
  dsimp only
  rw [if_pos hid, hs.trim_eq]

/-- **Lines**: what is shown of a line that is no JSON message is no JSON message either, and is
read as the same message again. -/
theorem ofLine_text {line : String} (h : jsonOf? line = none) :
    jsonOf? (ofLine line).text = none ∧ ofLine (ofLine line).text = ofLine line := by
  have hstands : Stands (Text.trim line.toList) (ofLine line) := by
    rw [ofLine_eq, h]
    exact stands_ofPlainLine (Text.trim_trim line.toList)
  generalize hm : ofLine line = m at hstands ⊢
  cases hstands with
  | error he => exact ofLine_text_error he
  | layer hid hs => exact ofLine_text_layer hid hs
  | status =>
    -- the line is shown as it is, without blanks around it
    have htext : (ofStatus (String.ofList (Text.trim line.toList))).text =
        String.ofList (Text.trim line.toList) := by
      simp [text, ofStatus]
    rw [htext]
    refine ⟨?_, ?_⟩
    · rw [jsonOf?, String.toList_ofList, Text.trim_trim]
      exact h
    · rw [← hm, ofLine, String.toList_ofList, Text.trim_trim]
      rfl

/-- A line that begins like an object, and is none. -/
theorem ofLine_text_open_brace : jsonOf? "\x7bstatus: Pulling" = none ∧
    jsonOf? (ofLine "\x7bstatus: Pulling").text = none ∧
    ofLine (ofLine "\x7bstatus: Pulling").text = ofLine "\x7bstatus: Pulling" := by
  have h : jsonOf? "\x7bstatus: Pulling" = none := by decide +kernel
  exact ⟨h, ofLine_text h⟩

end Message

end ImageRelay
