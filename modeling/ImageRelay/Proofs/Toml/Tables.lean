import ImageRelay.Proofs.Toml.Values

/-!
# Written tables are read back

A document of tables that are written one behind another, each entry on a line of its own, is read
back as these tables (`parse?_tables`), also with comments between the lines (`parse?_lines`).

* `Says`, `Lines`: a line that is read as a statement, and a text of such lines, empty ones and
  comments.
* `Entry`, `Table`: entries and tables as they are written, with what they are read as.
* `foldlM_tables`: what the statements of the tables add to a document.
-/

set_option autoImplicit false

namespace ImageRelay.Toml

/-! ## Keys -/

/-- A name that is written without quotes. -/
structure IsBare (name : String) : Prop where
  ne_nil : name.toList ≠ []
  bare : ∀ c ∈ name.toList, isBareChar c = true

theorem isBare_of_all {name : String} (hn : name.toList.isEmpty = false)
    (h : name.toList.all isBareChar = true) : IsBare name :=
  ⟨List.isEmpty_eq_false_iff.1 hn, List.all_eq_true.1 h⟩

/-- No gap, comment, empty line or byte order mark begins with the character. -/
structure Begins (c : Char) : Prop where
  gap : isGap c = false
  comment : c ≠ '#'
  feed : c ≠ '\n'
  carriage : c ≠ '\r'
  mark : c ≠ '\uFEFF'

/-- A bare name begins with a character that is none of the others. -/
theorem IsBare.exists_cons {name : String} (hn : IsBare name) : ∃ c r, name.toList = c :: r ∧
    Begins c ∧ ∀ d, isBareChar d = false → c ≠ d := by
  obtain ⟨c, r, hcons⟩ := List.exists_cons_of_ne_nil hn.ne_nil
  have hne : ∀ d, isBareChar d = false → c ≠ d := by
    rintro d hd rfl
    simp [hn.bare c (hcons ▸ List.mem_cons_self)] at hd
  have hgap : isGap c = false := by simp [isGap, hne ' ' rfl, hne '\t' rfl]
  exact ⟨c, r, hcons, ⟨hgap, hne '#' rfl, hne '\n' rfl, hne '\r' rfl, hne '\uFEFF' rfl⟩, hne⟩

theorem keyPart?_bare {name : String} (hn : IsBare name) {d : Char} {rest : List Char}
    (hd : isBareChar d = false) :
    keyPart? (name.toList ++ d :: rest) = some (name, d :: rest) := by
  have htake := (Text.span_append_cons hn.bare hd rest).1
  obtain ⟨c, r, hcons, -, hne⟩ := hn.exists_cons
  unfold keyPart?
  split
  · rename_i h
    rw [hcons] at h
    exact absurd (List.cons.inj h).1 (hne '"' rfl)
  · rename_i h
    rw [hcons] at h
    exact absurd (List.cons.inj h).1 (hne '\'' rfl)
  · simp [htake, hn.ne_nil]

/-- In front of another character than a dot, a bare name is a key of one part. -/
theorem key?_bare {name : String} (hn : IsBare name) (fuel : Nat) {d : Char} {rest : List Char}
    (hd : isBareChar d = false) {e : Char} {r : List Char} (hr : skipGap (d :: rest) = e :: r)
    (he : e ≠ '.') : key? (fuel + 1) (name.toList ++ d :: rest) = some ([name], e :: r) := by
  obtain ⟨c, r', hcons, hc, -⟩ := hn.exists_cons
  have hflush : skipGap (name.toList ++ d :: rest) = name.toList ++ d :: rest := by
    rw [hcons]
    exact skipGap_cons hc.gap _
  rw [key?, hflush, keyPart?_bare hn hd]
  dsimp only
  rw [hr]
  split
  · rename_i h
    exact absurd (List.cons.inj h).1 he
  · rfl

/-! ## Lines -/

/-- A line that is read as a statement. -/
structure Says (line : List Char) (st : Statement) : Prop where
  begins : ∃ c r, line = c :: r ∧ Begins c
  read (rest : List Char) : statement? (line ++ '\n' :: rest) = some (st, '\n' :: rest)

theorem says_header {name : String} (hn : IsBare name) :
    Says ('[' :: (name.toList ++ [']'])) (.header [name]) where
  begins := ⟨'[', _, rfl, rfl, by decide, by decide, by decide, by decide⟩
  read rest := by
    have hkey (fuel : Nat) : key? (fuel + 1) (name.toList ++ ']' :: '\n' :: rest) =
        some ([name], ']' :: '\n' :: rest) := key?_bare hn fuel rfl rfl (by decide)
    obtain ⟨c, r, hcons, -, hne⟩ := hn.exists_cons
    rw [List.cons_append, List.append_assoc, List.singleton_append]
    unfold statement?
    dsimp only
    split
    · rename_i h
      rw [hcons] at h
      exact absurd (List.cons.inj (List.cons.inj h).2).1 (hne '[' rfl)
    · rename_i r' _ h
      obtain rfl := (List.cons.inj h).2
      rw [hkey]
      rfl
    · rename_i h
      exact absurd rfl (h _)

theorem says_entry {key : String} (hk : IsBare key) {text : List Char} {v : Value}
    (hv : Spells text v) :
    Says (key.toList ++ ' ' :: '=' :: ' ' :: text) (.entry [key] v) := by
  obtain ⟨c, r, hcons, hc, hne⟩ := hk.exists_cons
  constructor
  · exact ⟨c, _, by rw [hcons]; rfl, hc⟩
  · intro rest
    have hkey (fuel : Nat) :
        key? (fuel + 1) (key.toList ++ ' ' :: '=' :: ' ' :: (text ++ '\n' :: rest)) =
          some ([key], '=' :: ' ' :: (text ++ '\n' :: rest)) := key?_bare hk fuel rfl rfl (by decide)
    have hgap : skipGap (' ' :: (text ++ '\n' :: rest)) = text ++ '\n' :: rest := hv.flush rest
    have hline : key.toList ++ ' ' :: '=' :: ' ' :: text ++ '\n' :: rest =
        key.toList ++ ' ' :: '=' :: ' ' :: (text ++ '\n' :: rest) := by simp
    rw [hline]
    unfold statement?
    dsimp only
    split
    · rename_i h
      rw [hcons] at h
      exact absurd (List.cons.inj h).1 (hne '[' rfl)
    · rename_i h
      rw [hcons] at h
      exact absurd (List.cons.inj h).1 (hne '[' rfl)
    · rw [hkey]
      simp only [hgap, hv.read]
      rfl

theorem skipSpace?_empty (fuel : Nat) (text : List Char) :
    skipSpace? (fuel + 1) ('\n' :: text) = skipSpace? fuel text := rfl

theorem skipSpace?_cons {c : Char} (h : Begins c) (fuel : Nat) (r : List Char) :
    skipSpace? (fuel + 1) (c :: r) = some (c :: r) := by
  have hcomment : skipComment? (c :: r) = some (c :: r) := by simp [skipComment?, h.comment]
  have hnewline : newline? (c :: r) = none := by simp [newline?, h.feed, h.carriage]
  rw [skipSpace?, skipGap_cons h.gap, hcomment]
  simp only [hnewline]

theorem skipSpace?_comment {note : List Char} (hn : ∀ c ∈ note, isControl c = false) (fuel : Nat)
    (text : List Char) : skipSpace? (fuel + 1) ('#' :: (note ++ '\n' :: text)) =
      skipSpace? fuel text := by
  have hdrop : (note ++ '\n' :: text).dropWhile (!isControl ·) = '\n' :: text :=
    (Text.span_append_cons (by simpa using hn) rfl text).2
  have hcomment : skipComment? ('#' :: (note ++ '\n' :: text)) = some ('\n' :: text) := by
    simp [skipComment?, hdrop]
  rw [skipSpace?, skipGap_cons rfl, hcomment]
  rfl

/-- What is passed over before the next statement makes no difference. -/
theorem statementsFrom?_congr {s s' : List Char}
    (h : skipSpace? (s.length + 1) s = skipSpace? (s'.length + 1) s') (fuel : Nat) :
    statementsFrom? (fuel + 1) s = statementsFrom? (fuel + 1) s' := by
  rw [statementsFrom?, statementsFrom?, h]

/-- A line is read as its statement. -/
theorem statementsFrom?_line {line : List Char} {st : Statement} (h : Says line st) (fuel : Nat)
    (text : List Char) : statementsFrom? (fuel + 1) (line ++ '\n' :: text) =
      (statementsFrom? fuel text).map (st :: ·) := by
  obtain ⟨c, r, rfl, hc⟩ := h.begins
  have hread := h.read text
  rw [List.cons_append] at hread ⊢
  rw [statementsFrom?, skipSpace?_cons hc]
  simp only [hread]
  rfl

/-- Lines that are read as statements, each ended, with empty lines and comments between them. -/
inductive Lines : List Char → List Statement → Prop
  | nil : Lines [] []
  | empty {text : List Char} {sts : List Statement} (h : Lines text sts) : Lines ('\n' :: text) sts
  | comment {note text : List Char} {sts : List Statement} (hn : ∀ c ∈ note, isControl c = false)
      (h : Lines text sts) : Lines ('#' :: (note ++ '\n' :: text)) sts
  | line {line text : List Char} {st : Statement} {sts : List Statement} (hl : Says line st)
      (h : Lines text sts) : Lines (line ++ '\n' :: text) (st :: sts)

namespace Lines

theorem append {text text' : List Char} {sts sts' : List Statement} (h : Lines text sts)
    (h' : Lines text' sts') : Lines (text ++ text') (sts ++ sts') := by
  induction h with
  | nil => exact h'
  | empty _ ih => exact .empty ih
  | comment hn _ ih =>
    rw [List.cons_append, List.append_assoc, List.cons_append]
    exact .comment hn ih
  | line hl _ ih =>
    rw [List.append_assoc, List.cons_append]
    exact .line hl ih

/-- The fuel for empty lines and comments does not matter if there is enough of it. -/
theorem exists_skipSpace? {text : List Char} {sts : List Statement} (h : Lines text sts) :
    ∃ s, ∀ fuel, text.length < fuel → skipSpace? fuel text = some s := by
  induction h with
  | nil =>
    refine ⟨[], fun fuel hf => ?_⟩
    obtain ⟨fuel, rfl⟩ : ∃ n, fuel = n + 1 := ⟨fuel - 1, by omega⟩
    rfl
  | empty _ ih =>
    obtain ⟨s, hs⟩ := ih
    refine ⟨s, fun fuel hf => ?_⟩
    obtain ⟨fuel, rfl⟩ : ∃ n, fuel = n + 1 := ⟨fuel - 1, by omega⟩
    rw [skipSpace?_empty]
    exact hs fuel (Nat.lt_of_succ_lt_succ hf)
  | comment hn _ ih =>
    obtain ⟨s, hs⟩ := ih
    refine ⟨s, fun fuel hf => ?_⟩
    obtain ⟨fuel, rfl⟩ : ∃ n, fuel = n + 1 := ⟨fuel - 1, by omega⟩
    rw [skipSpace?_comment hn]
    simp only [List.length_cons, List.length_append] at hf
    exact hs fuel (by omega)
  | @line _ text _ _ hl _ _ =>
    obtain ⟨c, r, rfl, hc⟩ := hl.begins
    refine ⟨c :: (r ++ '\n' :: text), fun fuel hf => ?_⟩
    obtain ⟨fuel, rfl⟩ : ∃ n, fuel = n + 1 := ⟨fuel - 1, by omega⟩
    rw [List.cons_append, skipSpace?_cons hc]

/-- All lines of a text are read. -/
theorem statementsFrom? {text : List Char} {sts : List Statement} (h : Lines text sts) {fuel : Nat}
    (hf : text.length < fuel) : Toml.statementsFrom? fuel text = some sts := by
  induction h generalizing fuel with
  | nil =>
    obtain ⟨fuel, rfl⟩ : ∃ n, fuel = n + 1 := ⟨fuel - 1, by omega⟩
    rfl
  | empty _ ih =>
    obtain ⟨fuel, rfl⟩ : ∃ n, fuel = n + 1 := ⟨fuel - 1, by omega⟩
    rw [statementsFrom?_congr (skipSpace?_empty _ _)]
    exact ih (Nat.lt_of_succ_lt hf)
  | @comment note text _ hn h ih =>
    obtain ⟨fuel, rfl⟩ : ∃ n, fuel = n + 1 := ⟨fuel - 1, by omega⟩
    simp only [List.length_cons, List.length_append] at hf
    obtain ⟨s, hs⟩ := h.exists_skipSpace?
    have hskip : skipSpace? (('#' :: (note ++ '\n' :: text)).length + 1)
        ('#' :: (note ++ '\n' :: text)) = skipSpace? (text.length + 1) text := by
      rw [skipSpace?_comment hn, hs _ (by simp; omega), hs _ (Nat.lt_succ_self _)]
    rw [statementsFrom?_congr hskip]
    exact ih (by omega)
  | line hl _ ih =>
    obtain ⟨fuel, rfl⟩ : ∃ n, fuel = n + 1 := ⟨fuel - 1, by omega⟩
    rw [List.length_append, List.length_cons] at hf
    rw [statementsFrom?_line hl, ih (by omega : _ < fuel)]
    rfl

theorem statements? {text : List Char} {sts : List Statement} (h : Lines text sts) :
    Toml.statements? text = some sts := by
  unfold Toml.statements?
  split
  · -- no line begins with a byte order mark
    rename_i r
    generalize ht : '\uFEFF' :: r = text at h
    cases h with
    | nil => cases ht
    | empty _ => exact absurd (List.cons.inj ht).1 (by decide)
    | comment _ _ => exact absurd (List.cons.inj ht).1 (by decide)
    | line hl _ =>
      obtain ⟨c, r', rfl, hc⟩ := hl.begins
      exact absurd (List.cons.inj ht).1.symm hc.mark
  · exact h.statementsFrom? (Nat.lt_succ_self _)

end Lines

/-- Whether a text is made of comments and empty lines, read from inside a comment or not. -/
def onlyComments : Bool → List Char → Bool
  | inside, [] => !inside
  | _, '\n' :: r => onlyComments false r
  | false, '#' :: r => onlyComments true r
  | false, _ :: _ => false
  | true, c :: r => !isControl c && onlyComments true r

/-- Comments and empty lines may stand before lines. By induction on what stands before them, from
outside and from inside a comment at once. -/
theorem lines_onlyComments {cs text : List Char} {sts : List Statement}
    (h : Lines text sts) : (onlyComments false cs = true → Lines (cs ++ text) sts) ∧
      (onlyComments true cs = true → ∃ note rest, cs = note ++ '\n' :: rest ∧
        (∀ c ∈ note, isControl c = false) ∧ Lines (rest ++ text) sts) := by
  induction cs with
  | nil => exact ⟨fun _ => h, nofun⟩
  | cons c r ih =>
    by_cases hfeed : c = '\n'
    · subst hfeed
      refine ⟨fun hc => .empty (ih.1 hc), fun hc => ⟨[], r, rfl, by simp, ih.1 hc⟩⟩
    · refine ⟨fun hc => ?_, fun hc => ?_⟩
      · by_cases hmark : c = '#'
        · subst hmark
          obtain ⟨note, rest, rfl, hnote, hlines⟩ := ih.2 hc
          rw [List.cons_append, List.append_assoc, List.cons_append]
          exact .comment hnote hlines
        · simp [onlyComments] at hc
      · have hinside : isControl c = false ∧ onlyComments true r = true := by
          simpa [onlyComments, hfeed] using hc
        obtain ⟨note, rest, rfl, hnote, hlines⟩ := ih.2 hinside.2
        refine ⟨c :: note, rest, rfl, ?_, hlines⟩
        simpa using ⟨hinside.1, hnote⟩

theorem lines_append {head body : String} {sts : List Statement}
    (hh : onlyComments false head.toList = true) (h : Lines body.toList sts) :
    Lines (head ++ body).toList sts := by
  rw [String.toList_append]
  exact (lines_onlyComments h).1 hh

/-! ## Tables -/

/-- An entry as it is written, and what it is read as. -/
structure Entry where
  key : String
  text : String
  value : Value
  bare : IsBare key
  spells : Spells text.toList value

/-- A table as it is written, and what it is read as. -/
structure Table where
  name : String
  entries : List Entry
  bare : IsBare name
  distinct : (entries.map (·.key)).Nodup

namespace Entry

def statement (e : Entry) : Statement := .entry [e.key] e.value

/-- What an entry adds to the entries of its table. -/
def field (e : Entry) : String × Value := (e.key, e.value)

end Entry

namespace Table

/-- The table as it is written. -/
def text (t : Table) : String := tableText t.name (t.entries.map fun e => (e.key, e.text))

def statements (t : Table) : List Statement := .header [t.name] :: t.entries.map (·.statement)

/-- What the table adds to the entries of a document. -/
def field (t : Table) : String × Value := (t.name, .table .header (t.entries.map (·.field)))

theorem toList_entryLine (key text : String) :
    s!"{key} = {text}\n".toList = key.toList ++ ' ' :: '=' :: ' ' :: text.toList ++ ['\n'] := by
  simp [toString]

theorem toList_headerLine (name : String) :
    s!"[{name}]\n".toList = '[' :: (name.toList ++ [']']) ++ ['\n'] := by
  simp [toString]

theorem lines_entries (es : List Entry) :
    Lines (es.flatMap fun e => s!"{e.key} = {e.text}\n".toList) (es.map (·.statement)) := by
  induction es with
  | nil => exact .nil
  | cons e es ih =>
    rw [List.flatMap_cons, toList_entryLine, List.append_assoc, List.singleton_append]
    exact .line (says_entry e.bare e.spells) ih

theorem lines_text (t : Table) : Lines t.text.toList t.statements := by
  have htext : t.text.toList = '[' :: (t.name.toList ++ [']']) ++
      '\n' :: t.entries.flatMap fun e => s!"{e.key} = {e.text}\n".toList := by
    rw [text, tableText, String.toList_append, toList_headerLine, String.toList_join,
      List.append_assoc, List.singleton_append, List.flatMap_map, List.flatMap_map]
  rw [htext]
  exact .line (says_header t.bare) (lines_entries t.entries)

theorem lines_document : ∀ ts : List Table,
    Lines ("\n".intercalate (ts.map (·.text))).toList (ts.flatMap (·.statements))
  | [] => .nil
  | [t] => by simpa using t.lines_text
  | t :: t' :: ts => by
    have hrest := Lines.empty (lines_document (t' :: ts))
    have hall := t.lines_text.append hrest
    simpa [String.intercalate_cons_cons] using hall

end Table

/-! ## Reading the tables -/

theorem set_append_singleton {front : Entries} {name : String} (hn : front.lookup name = none)
    (v v' : Value) : Entries.set (front ++ [(name, v)]) name v' = front ++ [(name, v')] := by
  have hfront : front.map (fun e => if e.1 = name then (name, v') else e) = front := by
    refine (List.map_congr_left fun e he => ?_).trans (List.map_id front)
    have hne : name ≠ e.1 := by simpa using List.lookup_eq_none_iff.1 hn e he
    simp [hne.symm]
  simp [Entries.set, hfront]

/-- The header of a new table opens it. -/
theorem add_header {root : Entries} {name : String} (hn : root.lookup name = none)
    (path : List String) :
    Draft.add ⟨root, path⟩ (.header [name]) =
      some ⟨root ++ [(name, .table .header [])], [name]⟩ := by
  simp [Draft.add, Entries.addHeader, Entries.descend, hn]

/-- An entry goes into the table that was opened last. -/
theorem add_entry {front inner : Entries} {name key : String} (hn : front.lookup name = none)
    (hk : inner.lookup key = none) (v : Value) :
    Draft.add ⟨front ++ [(name, .table .header inner)], [name]⟩ (.entry [key] v) =
      some ⟨front ++ [(name, .table .header (inner ++ [(key, v)]))], [name]⟩ := by
  have hlookup : (front ++ [(name, Value.table .header inner)]).lookup name =
      some (.table .header inner) := by
    rw [List.lookup_append, hn]
    simp
  simp [Draft.add, Entries.addEntry, Entries.descend, hlookup, hk, set_append_singleton hn]

theorem lookup_append_eq_none {es : Entries} {key : String} (he : es.lookup key = none)
    {key' : String} (hk : key ≠ key') (v : Value) : (es ++ [(key', v)]).lookup key = none := by
  rw [List.lookup_append, he]
  simp [hk]

/-- The entries of a table are added to it in order. -/
theorem foldlM_entries {front : Entries} {name : String} (hn : front.lookup name = none)
    (es : List Entry) (hd : (es.map (·.key)).Nodup) (inner : Entries)
    (hk : ∀ e ∈ es, inner.lookup e.key = none) :
    (es.map (·.statement)).foldlM Draft.add ⟨front ++ [(name, .table .header inner)], [name]⟩ =
      some ⟨front ++ [(name, .table .header (inner ++ es.map (·.field)))], [name]⟩ := by
  induction es generalizing inner with
  | nil => simp
  | cons e es ih =>
    rw [List.map_cons, List.nodup_cons] at hd
    have hrest : ∀ e' ∈ es, (inner ++ [(e.key, e.value)]).lookup e'.key = none := fun e' he' =>
      lookup_append_eq_none (hk e' (List.mem_cons_of_mem _ he'))
        (fun h => hd.1 (List.mem_map.2 ⟨e', he', h⟩)) e.value
    rw [List.map_cons, List.foldlM_cons, Entry.statement, add_entry hn (hk e List.mem_cons_self)]
    have hall := ih hd.2 (inner ++ [(e.key, e.value)]) hrest
    rw [List.append_assoc] at hall
    exact hall

/-- The tables of a document are added to it in order. -/
theorem foldlM_tables (ts : List Table) (hd : (ts.map (·.name)).Nodup) (front : Entries)
    (path : List String) (hf : ∀ t ∈ ts, front.lookup t.name = none) :
    ∃ path', (ts.flatMap (·.statements)).foldlM Draft.add ⟨front, path⟩ =
      some ⟨front ++ ts.map (·.field), path'⟩ := by
  induction ts generalizing front path with
  | nil => exact ⟨path, by simp⟩
  | cons t ts ih =>
    rw [List.map_cons, List.nodup_cons] at hd
    have hn := hf t List.mem_cons_self
    have hrest : ∀ t' ∈ ts, (front ++ [t.field]).lookup t'.name = none := fun t' ht' =>
      lookup_append_eq_none (hf t' (List.mem_cons_of_mem _ ht'))
        (fun h => hd.1 (List.mem_map.2 ⟨t', ht', h⟩)) _
    obtain ⟨path', hall⟩ := ih hd.2 (front ++ [t.field]) [t.name] hrest
    refine ⟨path', ?_⟩
    have hentries := foldlM_entries hn t.entries t.distinct [] fun _ _ => rfl
    have htable : t.statements.foldlM Draft.add ⟨front, path⟩ =
        some ⟨front ++ [t.field], [t.name]⟩ := by
      rw [Table.statements, List.foldlM_cons, add_header hn]
      exact hentries
    rw [List.append_assoc] at hall
    rw [List.flatMap_cons, List.foldlM_append, htable]
    exact hall

/-- A text of the lines of some tables, whatever empty lines and comments stand between them. -/
theorem parse?_lines {text : String} (ts : List Table) (hd : (ts.map (·.name)).Nodup)
    (h : Lines text.toList (ts.flatMap (·.statements))) :
    parse? text = some (ts.map (·.field)) := by
  obtain ⟨path, hall⟩ := foldlM_tables ts hd [] [] fun _ _ => rfl
  rw [List.nil_append] at hall
  rw [parse?, h.statements?]
  simp [hall]

/-- **Written tables are read back**: a document of tables with different names, one behind
another, is read as these tables in order, each with its entries in order. -/
theorem parse?_tables (ts : List Table) (hd : (ts.map (·.name)).Nodup) :
    parse? ("\n".intercalate (ts.map (·.text))) = some (ts.map (·.field)) :=
  parse?_lines ts hd (Table.lines_document ts)

end ImageRelay.Toml
