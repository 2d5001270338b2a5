import ImageRelay.Engine.Removed
import ImageRelay.Proofs.Text.Lines

/-!
# Reading removals

What an engine tells of its removals is read line by line, in order (`Removed.ofOutput_append`), and
no line is taken for two effects or for none of both (`Removed.single_of_ofLine?`).

* `Removed.Line`: an effect as an engine writes it, with its indentation and its line end.
* `Removed.ofLine?_told`: such a line tells of this effect, whatever its value is.
* `Removed.ofOutput_reads`: the effects are read as they were written.
-/

set_option autoImplicit false

namespace ImageRelay.Removed

/-! ## Effects -/

/-- One thing happened, and not the other. -/
def Single (r : Removed) : Prop := r.untagged.isSome = !r.deleted.isSome

/-- The word for what happened. -/
def word (r : Removed) : List Char :=
  if r.untagged.isSome then "Untagged".toList else "Deleted".toList

/-- The reference or id to which it happened. -/
def value (r : Removed) : String := (r.untagged.or r.deleted).getD ""

theorem Single.cases {r : Removed} (h : r.Single) :
    (∃ v, r = { untagged := some v }) ∨ ∃ v, r = { deleted := some v } := by
  obtain ⟨untagged, deleted⟩ := r
  cases untagged with
  | none =>
    cases deleted with
    | none => cases h
    | some v => exact .inr ⟨v, rfl⟩
  | some v =>
    cases deleted with
    | none => exact .inl ⟨v, rfl⟩
    | some v => cases h

theorem word_eq (r : Removed) : r.word = "Untagged".toList ∨ r.word = "Deleted".toList := by
  unfold word
  split
  · exact .inl rfl
  · exact .inr rfl

/-! ## Lines -/

theorem ofLine?_congr {l l' : List Char} (h : Text.trim l = Text.trim l') :
    ofLine? l = ofLine? l' := by
  rw [ofLine?, ofLine?, h]

theorem single_of_ofLine? {l : List Char} {r : Removed} (h : ofLine? l = some r) : r.Single := by
  unfold ofLine? at h
  split at h
  · cases h
  · dsimp only at h
    split at h
    · cases h
      rfl
    · split at h
      · cases h
        rfl
      · cases h

/-- An effect as an engine writes it: behind any blanks, with a value that has no blanks around it
and no line feed in it, and with a line end of either kind. -/
structure Line where
  indent : List Char
  removed : Removed
  crlf : Bool
  blank : ∀ c ∈ indent, Text.isBlank c = true
  single : removed.Single
  trimmed : Text.trim removed.value.toList = removed.value.toList
  unbroken : '\n' ∉ removed.value.toList

namespace Line

/-- What stands between the blanks and the line feed. -/
def told (l : Line) : List Char :=
  l.removed.word ++ ':' :: ' ' :: l.removed.value.toList ++ if l.crlf then ['\r'] else []

/-- The line. -/
def text (l : Line) : List Char := l.indent ++ l.told ++ ['\n']

end Line

/-- What is told behind a word and a colon, up to the blanks around it. -/
theorem splitOnce_trim {w : List Char} (hw : Text.trim w = w) (hc : ':' ∉ w) (s : List Char) :
    Text.splitOnce ':' (Text.trim (w ++ ':' :: s)) = some (w, Text.trimEnd s) := by
  have hstart : Text.trimStart (w ++ ':' :: s) = w ++ ':' :: s := by
    refine Text.trimStart_eq_self fun c hc => ?_
    cases w with
    | nil =>
      cases hc
      rfl
    | cons x w =>
      have hhead := Text.not_isBlank_head?_trim (x :: w)
      rw [hw] at hhead
      exact hhead c hc
  rw [Text.trim, hstart, Text.trimEnd_append_cons (by decide)]
  exact Text.splitOnce_eq_some_iff.2 ⟨rfl, hc⟩

theorem ofLine?_word {r : Removed} (hr : r.Single)
    (hv : Text.trim r.value.toList = r.value.toList) :
    ofLine? (r.word ++ ':' :: ' ' :: r.value.toList) = some r := by
  have htold : Text.trim (Text.trimEnd (' ' :: r.value.toList)) = r.value.toList := by
    rw [Text.trim_trimEnd, Text.trim_cons (by decide), hv]
  rcases hr.cases with ⟨v, rfl⟩ | ⟨v, rfl⟩
  · have hword : Text.trim "Untagged".toList = "Untagged".toList := by decide
    rw [ofLine?, show word _ = "Untagged".toList from rfl, splitOnce_trim hword (by decide)]
    dsimp only
    rw [htold, hword, if_pos rfl, String.ofList_toList]
    rfl
  · have hword : Text.trim "Deleted".toList = "Deleted".toList := by decide
    rw [ofLine?, show word _ = "Deleted".toList from rfl, splitOnce_trim hword (by decide)]
    dsimp only
    rw [htold, hword, if_neg (by decide), if_pos rfl, String.ofList_toList]
    rfl

/-- A line tells of the effect it was written for. -/
theorem ofLine?_told (l : Line) : ofLine? l.told = some l.removed := by
  have htrim : Text.trim l.told =
      Text.trim (l.removed.word ++ ':' :: ' ' :: l.removed.value.toList) := by
    refine @Text.trim_append_blanks [] _ (by simp) (fun c hc => ?_) _
    split at hc
    · obtain rfl : c = '\r' := by simpa using hc
      rfl
    · cases hc
  rw [ofLine?_congr htrim, ofLine?_word l.single l.trimmed]

theorem not_mem_told (l : Line) : '\n' ∉ l.told := by
  have hword : '\n' ∉ l.removed.word := by
    rcases l.removed.word_eq with h | h <;> rw [h] <;> decide
  have hend : '\n' ∉ if l.crlf then ['\r'] else [] := by
    cases l.crlf <;> decide
  simp [Line.told, hword, l.unbroken, hend]

/-! ## Output -/

theorem ofOutput_eq (output : String) :
    ofOutput output = (output.toList.splitOn '\n').filterMap ofLine? :=
  Text.filterMap_lines (fun l => ofLine?_congr (Text.trim_concat (by decide) l)) rfl _

theorem ofOutput_append (a b : String) :
    ofOutput (a ++ "\n" ++ b) = ofOutput a ++ ofOutput b := by
  have hlist : (a ++ "\n" ++ b).toList = a.toList ++ '\n' :: b.toList := by simp
  rw [ofOutput_eq, ofOutput_eq, ofOutput_eq, hlist, List.splitOn_append_cons_self,
    List.filterMap_append]

/-- Blanks before an output make no difference, line feeds included. -/
theorem ofOutput_blanks {before : List Char} (hb : ∀ c ∈ before, Text.isBlank c = true)
    (s : List Char) :
    ((before ++ s).splitOn '\n').filterMap ofLine? = (s.splitOn '\n').filterMap ofLine? := by
  induction before with
  | nil => rfl
  | cons c before ih =>
    have hc : Text.isBlank c = true := hb c List.mem_cons_self
    rw [List.cons_append, Text.filterMap_splitOn_cons (fun l => ofLine?_congr (Text.trim_cons hc l))
      rfl, ih fun x hx => hb x (List.mem_cons_of_mem _ hx)]

theorem ofOutput_line (l : Line) : ofOutput (String.ofList (l.indent ++ l.told)) = [l.removed] := by
  rw [ofOutput_eq, String.toList_ofList, ofOutput_blanks l.blank,
    List.splitOn_eq_singleton (not_mem_told l), List.filterMap_cons, ofLine?_told]
  rfl

theorem single_of_mem_ofOutput {output : String} {r : Removed} (h : r ∈ ofOutput output) :
    r.Single := by
  obtain ⟨l, -, hl⟩ := List.mem_filterMap.1 h
  exact single_of_ofLine? hl

theorem ofOutput_lines (lines : List Line) :
    ofOutput (String.ofList (lines.flatMap Line.text)) = lines.map Line.removed := by
  induction lines with
  | nil => rfl
  | cons l lines ih =>
    have hsplit : String.ofList ((l :: lines).flatMap Line.text) =
        String.ofList (l.indent ++ l.told) ++ "\n" ++
          String.ofList (lines.flatMap Line.text) := by
      rw [← String.toList_inj]
      simp [Line.text]
    rw [hsplit, ofOutput_append, ofOutput_line, ih]
    rfl

/-- **Removals**: every effect that is read is one of both kinds. What stands on both sides of a
line feed is read apart from each other and in order. Effects that were written line by line, with
any indentation and with either line end, are read as they were written. -/
theorem ofOutput_reads :
    (∀ output, ∀ r ∈ ofOutput output, r.Single) ∧
    (∀ a b, ofOutput (a ++ "\n" ++ b) = ofOutput a ++ ofOutput b) ∧
    ∀ lines : List Line, ofOutput (String.ofList (lines.flatMap Line.text)) =
      lines.map Line.removed :=
  ⟨fun _ _ hr => single_of_mem_ofOutput hr, ofOutput_append, ofOutput_lines⟩

end ImageRelay.Removed
