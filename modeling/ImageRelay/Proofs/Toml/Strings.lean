import ImageRelay.Text.Split
import ImageRelay.Toml.Scalar
import ImageRelay.Toml.Writer

/-!
# Written strings are read back

Whatever characters a string has, and in whichever of the four forms it is written, it is read back
from the start of a text (`stringAt?_stringText`).

* `Escapes`: what stands behind a backslash for a character.
* `Body`: a text between triple quotes that stands for characters. A quote means itself where at
  most two of them stand together, so the three at the end are found (`Body.run`).
-/

set_option autoImplicit false

namespace ImageRelay.Toml

/-! ## Escapes -/

/-- Behind a backslash the text stands for the character, whatever follows it. -/
structure Escapes (e : List Char) (c : Char) : Prop where
  read (rest : List Char) : escape? (e ++ rest) = some (c, rest)
  unbroken (rest : List Char) : newline? (skipGap (e ++ rest)) = none

theorem escapes_short {x c : Char} (h : shortEscape? x = some c) (hg : isGap x = false)
    (hn : ∀ rest, newline? (x :: rest) = none) : Escapes [x] c where
  read rest := by simp [escape?, h]
  unbroken rest := by
    rw [List.singleton_append, skipGap, List.dropWhile_cons, hg]
    exact hn rest

theorem hexNumber?_append (ds rest : List Char) :
    Text.hexNumber? ds.length (ds ++ rest) = Text.hexNumber? ds.length ds := by
  simp [Text.hexNumber?]

theorem hexNumber?_hex4 : ∀ n < 0x80, n < 0x20 ∨ n = 0x7F →
    (hex4 n).length = 4 ∧ Text.hexNumber? 4 (hex4 n) = some n := by
  decide +kernel

theorem escapes_hex {c : Char} (h : c.toNat < 0x20 ∨ c.toNat = 0x7F) :
    Escapes ('u' :: hex4 c.toNat) c where
  read rest := by
    obtain ⟨hl, hv⟩ := hexNumber?_hex4 c.toNat (by omega) h
    have hread : Text.hexNumber? 4 (hex4 c.toNat ++ rest) = some c.toNat := by
      rw [← hv, ← hl, hexNumber?_append]
    have hdrop : (hex4 c.toNat ++ rest).drop 4 = rest := List.drop_left' hl
    have hvalid : c.toNat.isValidChar := c.valid
    have hu : shortEscape? 'u' = none := rfl
    simp [escape?, hu, hread, hdrop, hvalid]
  unbroken rest := rfl

theorem escapes_of_escapeOf? {lines : Bool} {c : Char} {e : List Char}
    (h : escapeOf? lines c = some e) : ∃ e', e = '\\' :: e' ∧ Escapes e' c := by
  have hshort (x : Char) (hx : shortEscape? x = some c) (hg : isGap x = false)
      (hn : ∀ rest, newline? (x :: rest) = none) (he : ['\\', x] = e) :
      ∃ e', e = '\\' :: e' ∧ Escapes e' c := ⟨[x], he.symm, escapes_short hx hg hn⟩
  unfold escapeOf? at h
  split at h
  · subst c; exact hshort 'b' rfl rfl (fun _ => rfl) (Option.some.inj h)
  split at h
  · subst c; exact hshort 't' rfl rfl (fun _ => rfl) (Option.some.inj h)
  split at h
  · subst c
    cases lines with
    | true => cases h
    | false => exact hshort 'n' rfl rfl (fun _ => rfl) (Option.some.inj h)
  split at h
  · subst c; exact hshort 'f' rfl rfl (fun _ => rfl) (Option.some.inj h)
  split at h
  · subst c; exact hshort 'r' rfl rfl (fun _ => rfl) (Option.some.inj h)
  split at h
  · subst c; exact hshort '\\' rfl rfl (fun _ => rfl) (Option.some.inj h)
  split at h
  · rename_i hc
    exact ⟨_, (Option.some.inj h).symm, escapes_hex (by simpa using hc)⟩
  · cases h

/-- A character without an escape means itself. -/
theorem plain_of_escapeOf? {lines : Bool} {c : Char} (h : escapeOf? lines c = none) :
    c ≠ '\\' ∧ ((lines = true ∧ c = '\n') ∨ isControl c = false) := by
  unfold escapeOf? at h
  split at h
  · cases h
  split at h
  · cases h
  split at h
  · rename_i hc
    cases lines with
    | false => cases h
    | true => exact ⟨by rw [hc]; decide, .inl ⟨rfl, hc⟩⟩
  split at h
  · cases h
  split at h
  · cases h
  split at h
  · cases h
  split at h
  · cases h
  · rename_i hb hc
    refine ⟨hb, .inr ?_⟩
    simp only [Bool.or_eq_true, decide_eq_true_eq, not_or, Nat.not_lt] at hc
    simp [isControl, hc.2, Nat.not_lt.2 hc.1]

/-! ## Strings on one line -/

theorem basicString?_escapedText (quotes : Nat) (cs acc rest : List Char) {fuel : Nat}
    (hf : (escapedText false 0 quotes cs).length < fuel) :
    basicString? fuel acc (escapedText false 0 quotes cs ++ '"' :: rest) =
      some (acc.reverse ++ cs, rest) := by
  induction cs generalizing acc fuel quotes with
  | nil =>
    obtain ⟨fuel, rfl⟩ : ∃ n, fuel = n + 1 := ⟨fuel - 1, by omega⟩
    simp [escapedText, basicString?]
  | cons c cs ih =>
    obtain ⟨fuel, rfl⟩ : ∃ n, fuel = n + 1 := ⟨fuel - 1, by omega⟩
    have hescaped {e : List Char} (he : Escapes e c)
        (hl : (escapedText false 0 0 cs).length < fuel) :
        basicString? (fuel + 1) acc ('\\' :: (e ++ (escapedText false 0 0 cs ++ '"' :: rest))) =
          some (acc.reverse ++ c :: cs, rest) := by
      have hread := he.read (escapedText false 0 0 cs ++ '"' :: rest)
      rw [basicString?]
      simp [hread, ih 0 (c :: acc) hl]
    unfold escapedText at hf ⊢
    by_cases hq : c = '"'
    · subst hq
      simp only [if_true, Nat.not_lt_zero, if_false, List.length_cons] at hf ⊢
      exact hescaped (escapes_short rfl rfl fun _ => rfl) (by omega)
    · rw [if_neg hq] at hf ⊢
      split at hf
      · rename_i e he
        obtain ⟨e', rfl, hesc⟩ := escapes_of_escapeOf? he
        simp only [List.cons_append, List.append_assoc, List.length_append, List.length_cons] at hf ⊢
        exact hescaped hesc (by omega)
      · rename_i he
        obtain ⟨hb, hc⟩ := plain_of_escapeOf? he
        have hc' : isControl c = false := by simpa using hc
        simp only [List.length_cons] at hf
        simp [basicString?, hq, hb, hc', ih 0 (c :: acc) (by omega : _ < fuel)]

/-- Without quotes that are allowed, a text between quotes does not begin with one. -/
theorem head_escapedText (quotes : Nat) (cs : List Char) :
    ∀ r, escapedText false 0 quotes cs ≠ '"' :: r := by
  intro r h
  cases cs with
  | nil => cases h
  | cons c cs =>
    unfold escapedText at h
    by_cases hq : c = '"'
    · simp [hq] at h
    · rw [if_neg hq] at h
      split at h
      · rename_i e he
        obtain ⟨e', rfl, -⟩ := escapes_of_escapeOf? he
        simp at h
      · exact hq (List.cons.inj h).1

theorem literalString?_append {cs : List Char} (h : ∀ c ∈ cs, c ≠ '\'' ∧ isControl c = false)
    (rest : List Char) : literalString? (cs ++ '\'' :: rest) = some (cs, rest) := by
  have htake : (cs ++ '\'' :: rest).takeWhile (fun c => c != '\'' && !isControl c) = cs :=
    (Text.span_append_cons (fun c hc => by simp [h c hc]) rfl rest).1
  rw [literalString?, htake]
  simp

/-! ## Strings of lines -/

/-- Behind `quotes` quotes, the text between triple quotes stands for some characters. -/
inductive Body (quote : Char) : Nat → List Char → List Char → Prop
  | nil {quotes : Nat} : Body quote quotes [] []
  | quote {quotes : Nat} {text cs : List Char} (hq : quotes < 2)
      (h : Body quote (quotes + 1) text cs) : Body quote quotes (quote :: text) (quote :: cs)
  | plain {quotes : Nat} {c : Char} {text cs : List Char} (hq : c ≠ quote)
      (hs : c = '\\' → quote ≠ '"') (hc : c = '\n' ∨ isControl c = false)
      (h : Body quote 0 text cs) : Body quote quotes (c :: text) (c :: cs)
  | escape {quotes : Nat} {c : Char} {e text cs : List Char} (hq : quote = '"') (he : Escapes e c)
      (h : Body quote 0 text cs) : Body quote quotes ('\\' :: (e ++ text)) (c :: cs)

namespace Body

variable {quote : Char} {quotes : Nat} {text cs : List Char}

/-- A text is at its end but for quotes, or another character stands behind at most two of them. -/
theorem run (h : Body quote quotes text cs) (hq : quotes ≤ 2) :
    (∃ n, quotes + n ≤ 2 ∧ text = List.replicate n quote ∧ cs = List.replicate n quote) ∨
      ∀ rest, quotes + ((text ++ rest).takeWhile (· == quote)).length ≤ 2 := by
  induction h with
  | nil => exact .inl ⟨0, hq, rfl, rfl⟩
  | quote hlt _ ih =>
    rcases ih hlt with ⟨n, hn, rfl, rfl⟩ | hrun
    · exact .inl ⟨n + 1, by omega, rfl, rfl⟩
    · refine .inr fun rest => ?_
      have := hrun rest
      simp only [List.cons_append, List.takeWhile_cons, beq_self_eq_true, if_true,
        List.length_cons]
      omega
  | plain hne => exact .inr fun rest => by simpa [hne] using hq
  | escape hquote => exact .inr fun rest => by simpa [hquote] using hq

end Body

/-- The quotes at the end of a text and the three behind it are found. -/
theorem closing?_replicate {quote : Char} {n : Nat} (hn : n ≤ 2) {rest : List Char}
    (hr : rest.head? ≠ some quote) :
    closing? quote (List.replicate n quote ++ quote :: quote :: quote :: rest) =
      some (List.replicate n quote, rest) := by
  have hall : List.replicate n quote ++ quote :: quote :: quote :: rest =
      List.replicate (n + 3) quote ++ rest := by
    rw [← List.replicate_append_replicate, List.append_assoc]
    rfl
  have hrest : rest.takeWhile (· == quote) = [] := by
    cases rest with
    | nil => rfl
    | cons c rest =>
      have hc : c ≠ quote := by simpa using hr
      simp [hc]
  have hlen : ((List.replicate (n + 3) quote ++ rest).takeWhile (· == quote)).length = n + 3 := by
    rw [List.takeWhile_append_of_pos (by simp), hrest]
    simp
  have hmin : min (n + 3) 5 = n + 3 := by omega
  have hdrop : (List.replicate (n + 3) quote ++ rest).drop (n + 3) = rest :=
    List.drop_left' (by simp)
  rw [hall, closing?, hlen, hmin, hdrop]
  simp

theorem closing?_eq_none {quote : Char} {s : List Char}
    (h : (s.takeWhile (· == quote)).length ≤ 2) : closing? quote s = none := by
  rw [closing?, if_pos (by omega)]

theorem newline?_cons_of_not_control {c : Char} (h : isControl c = false) (rest : List Char) :
    newline? (c :: rest) = none := by
  have hn : c ≠ '\n' := by rintro rfl; cases h
  have hr : c ≠ '\r' := by rintro rfl; cases h
  simp [newline?, hn, hr]

/-- A body is read back up to the triple quotes behind it. -/
theorem linesString?_body {quote : Char} {quotes : Nat} {text cs : List Char}
    (h : Body quote quotes text cs) (hq : quotes ≤ 2) (acc : List Char) {rest : List Char}
    (hr : rest.head? ≠ some quote) {fuel : Nat} (hf : text.length < fuel) :
    linesString? quote fuel acc (text ++ quote :: quote :: quote :: rest) =
      some (acc.reverse ++ cs, rest) := by
  induction h generalizing acc fuel with
  | nil =>
    -- the fuel bounds the characters, so that one is left for the quotes
    obtain ⟨fuel, rfl⟩ : ∃ n, fuel = n + 1 := ⟨fuel - 1, by omega⟩
    have hclose : closing? quote (quote :: quote :: quote :: rest) = some ([], rest) :=
      closing?_replicate (Nat.zero_le 2) hr
    simp [linesString?, hclose]
  | @quote quotes text cs hlt h ih =>
    obtain ⟨fuel, rfl⟩ : ∃ n, fuel = n + 1 := ⟨fuel - 1, by omega⟩
    rw [List.cons_append, linesString?, if_pos (by simp), ← List.cons_append]
    -- a quote is either in the run before the end, which is closed here, or means itself
    rcases (Body.quote hlt h).run hq with ⟨n, hn, htext, hcs⟩ | hrun
    · rw [htext, hcs, closing?_replicate (by omega) hr]
    · have hnone := closing?_eq_none
        (Nat.le_trans (Nat.le_add_left _ quotes) (hrun (quote :: quote :: quote :: rest)))
      rw [hnone]
      simpa using ih hlt (quote :: acc) (Nat.lt_of_succ_lt_succ hf)
  | @plain quotes c text cs hne hs hc h ih =>
    obtain ⟨fuel, rfl⟩ : ∃ n, fuel = n + 1 := ⟨fuel - 1, by omega⟩
    have hnext := ih (Nat.zero_le 2) (c :: acc) (Nat.lt_of_succ_lt_succ hf)
    have hslash : (c == '\\' && quote == '"') = false := by
      by_cases hb : c = '\\'
      · simp [hs hb]
      · simp [hb]
    rw [List.cons_append, linesString?, if_neg (by simpa using hne), hslash]
    by_cases hbreak : c = '\n'
    · subst hbreak
      simpa [newline?] using hnext
    · have hcontrol : isControl c = false := hc.resolve_left hbreak
      rw [newline?_cons_of_not_control hcontrol]
      simpa [hcontrol] using hnext
  | @escape quotes c e text cs hquote he h ih =>
    subst hquote
    obtain ⟨fuel, rfl⟩ : ∃ n, fuel = n + 1 := ⟨fuel - 1, by omega⟩
    simp only [List.length_cons, List.length_append] at hf
    have hnext := ih (Nat.zero_le 2) (c :: acc) (by omega : text.length < fuel)
    have hread := he.read (text ++ '"' :: '"' :: '"' :: rest)
    have hunbroken := he.unbroken (text ++ '"' :: '"' :: '"' :: rest)
    rw [List.cons_append, List.append_assoc, linesString?, hunbroken]
    simpa [hread] using hnext

/-- A text that is written with escapes is a body between double quotes. -/
theorem body_escapedText (quotes : Nat) (cs : List Char) :
    Body '"' quotes (escapedText true 2 quotes cs) cs := by
  induction cs generalizing quotes with
  | nil => exact .nil
  | cons c cs ih =>
    unfold escapedText
    by_cases hq : c = '"'
    · subst hq
      rw [if_pos rfl]
      split
      · rename_i hlt
        exact .quote hlt (ih (quotes + 1))
      · exact .escape rfl (escapes_short rfl rfl fun _ => rfl) (ih 0)
    · rw [if_neg hq]
      split
      · rename_i e he
        obtain ⟨e', rfl, hesc⟩ := escapes_of_escapeOf? he
        exact .escape rfl hesc (ih 0)
      · rename_i he
        obtain ⟨hb, hc⟩ := plain_of_escapeOf? he
        exact .plain hq (fun h => absurd h hb) (by simpa using hc) (ih 0)

/-! ## Runs of quotes -/

section
variable (q : Char)

/-- The longest run so far and the run at the end, behind one character more. -/
def runStep (state : Nat × Nat) (c : Char) : Nat × Nat :=
  if c = q then (max state.1 (state.2 + 1), state.2 + 1) else (state.1, 0)

theorem longestRun_eq (cs : List Char) : longestRun q cs = (cs.foldl (runStep q) (0, 0)).1 := rfl

theorem le_foldl_runStep (cs : List Char) (state : Nat × Nat) :
    state.1 ≤ (cs.foldl (runStep q) state).1 := by
  induction cs generalizing state with
  | nil => exact Nat.le_refl _
  | cons c cs ih =>
    refine Nat.le_trans ?_ (ih (runStep q state c))
    unfold runStep
    split
    · exact Nat.le_max_left _ _
    · exact Nat.le_refl _

/-- Behind a character of the run, the longest run is at least as long as the run at the end. -/
theorem lt_foldl_runStep (cs : List Char) (longest quotes : Nat) :
    quotes < ((q :: cs).foldl (runStep q) (longest, quotes)).1 := by
  have h := le_foldl_runStep q cs (runStep q (longest, quotes) q)
  rw [runStep, if_pos rfl] at h
  have hmax := Nat.le_max_right longest (quotes + 1)
  rw [List.foldl_cons, runStep, if_pos rfl]
  exact Nat.lt_of_lt_of_le hmax h

theorem not_mem_of_longestRun {cs : List Char} (h : longestRun q cs = 0) : q ∉ cs := by
  intro hm
  obtain ⟨before, behind, rfl⟩ := List.append_of_mem hm
  rw [longestRun_eq, List.foldl_append] at h
  have hlt : (before.foldl (runStep q) (0, 0)).2 <
      ((q :: behind).foldl (runStep q) (before.foldl (runStep q) (0, 0))).1 :=
    lt_foldl_runStep q behind _ _
  omega

end

/-- A text without escapes, in which at most two apostrophes stand together, is a body between
triple apostrophes. -/
theorem body_apostrophes {quotes longest : Nat} {cs : List Char}
    (hrun : (cs.foldl (runStep '\'') (longest, quotes)).1 ≤ 2)
    (hc : ∀ c ∈ cs, c = '\n' ∨ isControl c = false) : Body '\'' quotes cs cs := by
  induction cs generalizing quotes longest with
  | nil => exact .nil
  | cons c cs ih =>
    have hrest : ∀ c ∈ cs, c = '\n' ∨ isControl c = false := fun d hd =>
      hc d (List.mem_cons_of_mem _ hd)
    by_cases hq : c = '\''
    · subst hq
      have hlt := lt_foldl_runStep '\'' cs longest quotes
      rw [List.foldl_cons, runStep, if_pos rfl] at hrun
      exact .quote (by rw [List.foldl_cons, runStep, if_pos rfl] at hlt; omega) (ih hrun hrest)
    · rw [List.foldl_cons, runStep, if_neg hq] at hrun
      exact .plain hq (fun _ => by decide) (hc c List.mem_cons_self) (ih hrun hrest)

/-! ## The four forms -/

theorem stringAt?_double {r : List Char} (h : ∀ r', r ≠ '"' :: '"' :: r') :
    stringAt? ('"' :: r) = basicString? (r.length + 2) [] r := by
  unfold stringAt?
  split
  · rename_i r' hr
    exact absurd (List.cons.inj hr).2 (h r')
  · rename_i hr
    cases hr
  · rename_i r' _ hr
    obtain rfl : r = r' := (List.cons.inj hr).2
    rfl
  · rename_i hr
    cases hr
  · rename_i hr _
    exact absurd rfl (hr r)

theorem stringAt?_single {r : List Char} (h : ∀ r', r ≠ '\'' :: '\'' :: r') :
    stringAt? ('\'' :: r) = literalString? r := by
  unfold stringAt?
  split
  · rename_i hr
    cases hr
  · rename_i r' hr
    exact absurd (List.cons.inj hr).2 (h r')
  · rename_i hr
    cases hr
  · rename_i r' _ hr
    obtain rfl : r = r' := (List.cons.inj hr).2
    rfl
  · rename_i _ hr
    exact absurd rfl (hr r)

section
variable {rest : List Char}

/-- Behind one quote, a text that does not begin with one does not open a string of lines. -/
theorem not_triple {quote : Char} {text : List Char} (ht : ∀ r, text ≠ quote :: r)
    (hr : rest.head? ≠ some quote) (r : List Char) :
    text ++ quote :: rest ≠ quote :: quote :: r := by
  intro h
  cases text with
  | nil =>
    obtain rfl : rest = quote :: r := by simpa using h
    exact hr rfl
  | cons c text =>
    obtain rfl : c = quote := (List.cons.inj h).1
    exact ht text rfl

theorem stringAt?_basic (cs : List Char) (hr : rest.head? ≠ some '"') :
    stringAt? ('"' :: (escapedText false 0 0 cs ++ '"' :: rest)) = some (cs, rest) := by
  rw [stringAt?_double (not_triple (head_escapedText 0 cs) hr)]
  exact basicString?_escapedText 0 cs [] rest (by simp; omega)

theorem stringAt?_literal {cs : List Char} (h : ∀ c ∈ cs, c ≠ '\'' ∧ isControl c = false)
    (hr : rest.head? ≠ some '\'') : stringAt? ('\'' :: (cs ++ '\'' :: rest)) = some (cs, rest) := by
  have hhead (r : List Char) : cs ≠ '\'' :: r := by
    rintro rfl
    exact (h '\'' List.mem_cons_self).1 rfl
  rw [stringAt?_single (not_triple hhead hr)]
  exact literalString?_append h rest

/-- Only a line break at the start of the characters is one at the start of a body. -/
theorem Body.newline?_eq_none {quote : Char} {quotes : Nat} {text cs : List Char}
    (h : Body quote quotes text cs) (hcs : '\n' ∉ cs) (hq : isControl quote = false)
    (rest : List Char) : newline? (text ++ quote :: rest) = none := by
  cases h with
  | nil => exact newline?_cons_of_not_control hq rest
  | quote => exact newline?_cons_of_not_control hq _
  | escape => rfl
  | @plain _ c _ _ _ _ hc =>
    have hbreak : c ≠ '\n' := by
      rintro rfl
      exact hcs List.mem_cons_self
    exact newline?_cons_of_not_control (hc.resolve_left hbreak) _

/-- A body between triple quotes; a line break is put before one that has any. -/
theorem stringAt?_lines {quote : Char} (hquote : quote = '"' ∨ quote = '\'')
    {text cs : List Char} (h : Body quote 0 text cs) (hr : rest.head? ≠ some quote) :
    stringAt? (quote :: quote :: quote ::
      ((if '\n' ∈ cs then ['\n'] else []) ++ (text ++ quote :: quote :: quote :: rest))) =
      some (cs, rest) := by
  have hcontrol : isControl quote = false := by rcases hquote with rfl | rfl <;> rfl
  have hread {fuel : Nat} (hf : text.length < fuel) :
      linesString? quote fuel [] (text ++ quote :: quote :: quote :: rest) = some (cs, rest) :=
    linesString?_body h (Nat.zero_le 2) [] hr hf
  have hskip : ∀ r, (if '\n' ∈ cs then ['\n'] else []) ++
      (text ++ quote :: quote :: quote :: rest) = r →
      (newline? r).getD r = text ++ quote :: quote :: quote :: rest := by
    rintro _ rfl
    split
    · rfl
    · rename_i hcs
      rw [List.nil_append, h.newline?_eq_none hcs hcontrol]
      rfl
  generalize hs : (if '\n' ∈ cs then ['\n'] else []) ++ (text ++ quote :: quote :: quote :: rest) = r
  have hlen : text.length ≤ r.length := by
    rw [← hs]
    simp
    omega
  rcases hquote with rfl | rfl
  · unfold stringAt?
    simp only [hskip r hs]
    exact hread (by simp; omega)
  · unfold stringAt?
    simp only [hskip r hs]
    exact hread (by simp; omega)

end

theorem not_control_of_not_needsEscape {c : Char} (h : needsEscape c = false) :
    c = '\n' ∨ isControl c = false := by
  by_cases hc : c = '\n'
  · exact .inl hc
  · refine .inr ?_
    simpa [needsEscape, isControl, hc] using h

/-- **A written string is read back**, in front of anything but a further quote. -/
theorem stringAt?_stringText (s : String) {rest : List Char} (hr : rest.head? ≠ some '"')
    (hr' : rest.head? ≠ some '\'') :
    stringAt? ((stringText s).toList ++ rest) = some (s.toList, rest) := by
  have hplain (h : (!s.toList.any needsEscape) = true) :
      ∀ c ∈ s.toList, c = '\n' ∨ isControl c = false := by
    intro c hc
    refine not_control_of_not_needsEscape ?_
    simp only [Bool.not_eq_true', List.any_eq_false, Bool.not_eq_true] at h
    exact h c hc
  have hstart : (if '\n' ∈ s.toList then "\n" else "").toList =
      if '\n' ∈ s.toList then ['\n'] else [] := by split <;> rfl
  have hbasic := stringAt?_basic s.toList hr
  have hdouble := stringAt?_lines (.inl rfl) (body_escapedText 0 s.toList) hr
  unfold stringText
  dsimp only
  split
  · simpa using hbasic
  split
  · rename_i h
    simp only [Bool.and_eq_true, decide_eq_true_eq] at h
    have hbreak : '\n' ∉ s.toList := by simpa using h.2
    have hquote := not_mem_of_longestRun '\'' h.1.2
    have hliteral : ∀ c ∈ s.toList, c ≠ '\'' ∧ isControl c = false := fun c hc =>
      ⟨fun hq => hquote (hq ▸ hc), (hplain h.1.1 c hc).resolve_left fun hn => hbreak (hn ▸ hc)⟩
    simpa using stringAt?_literal hliteral hr'
  split
  · simpa [hstart] using hdouble
  split
  · rename_i h
    simp only [Bool.and_eq_true, decide_eq_true_eq] at h
    have hsingle := stringAt?_lines (.inr rfl) (body_apostrophes h.2 (hplain h.1)) hr'
    simpa [hstart] using hsingle
  split
  · rename_i h
    rw [if_pos (by simpa using h)] at hdouble
    simpa using hdouble
  · simpa using hbasic

/-- Of the five quotes at the end two belong to the text. -/
example : stringText "it's \"\"" = "\"\"\"it's \"\"\"\"\"" := by rfl

end ImageRelay.Toml
