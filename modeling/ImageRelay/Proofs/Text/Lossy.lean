import ImageRelay.Proofs.Text.Bytes
import ImageRelay.Proofs.Text.Lines

/-!
# Bytes that are read whatever they are

The reader of bytes keeps what it knows of a character of which some bytes are read. It knows that
they begin a character, and which bytes may follow (`Awaits`), so with every byte the bytes so far
are those that were given out and those that are kept (`Awaits.feed`). Hence the pieces of any bytes
stand for all of them in order, each character for its own bytes (`cut_pieces`).

* `decodeLossy_encode`: a text is read as it is.
* `decode?_eq_none_iff`: bytes are no text exactly if one of their pieces is no character.
* `pieces_append_cons`: a byte below 0x80 is a character, whatever stands around it.
* `tightLines_decodeLossy`, `decode?_eq_none_iff_exists_line`: bytes are read line by line.
-/

set_option autoImplicit false

namespace ImageRelay.Text.Utf8

/-! ## What pieces stand for -/

/-- The pieces stand for the bytes: a character for its bytes, and `none` for some others. -/
inductive Cut : List UInt8 → List (Option Char) → Prop
  | nil : Cut [] []
  | char (c : Char) {bytes : List UInt8} {ps : List (Option Char)} (h : Cut bytes ps) :
      Cut (String.utf8EncodeChar c ++ bytes) (some c :: ps)
  | run {run bytes : List UInt8} {ps : List (Option Char)} (hrun : run ≠ []) (h : Cut bytes ps) :
      Cut (run ++ bytes) (none :: ps)

namespace Cut

variable {bytes bytes' : List UInt8} {ps ps' : List (Option Char)}

theorem append (h : Cut bytes ps) (h' : Cut bytes' ps') : Cut (bytes ++ bytes') (ps ++ ps') := by
  induction h with
  | nil => exact h'
  | char c _ ih =>
    rw [List.append_assoc]
    exact ih.char c
  | run hrun _ ih =>
    rw [List.append_assoc]
    exact ih.run hrun

/-- Bytes of which all pieces are characters are the bytes of these. -/
theorem exists_chars (h : Cut bytes ps) (hn : none ∉ ps) :
    ∃ cs : List Char, ps = cs.map some ∧ bytes = cs.flatMap String.utf8EncodeChar := by
  induction h with
  | nil => exact ⟨[], rfl, rfl⟩
  | char c _ ih =>
    obtain ⟨cs, rfl, rfl⟩ := ih fun h => hn (List.mem_cons_of_mem _ h)
    exact ⟨c :: cs, rfl, rfl⟩
  | run => exact absurd List.mem_cons_self hn

theorem bytes_subset (h : Cut bytes ps) {c : Char} (hc : some c ∈ ps) :
    String.utf8EncodeChar c ⊆ bytes := by
  induction h with
  | nil => cases hc
  | char d _ ih =>
    rcases List.mem_cons.1 hc with heq | hc
    · obtain rfl := Option.some.inj heq
      exact List.subset_append_left _ _
    · exact List.Subset.trans (ih hc) (List.subset_append_right _ _)
  | run _ _ ih =>
    rcases List.mem_cons.1 hc with heq | hc
    · cases heq
    · exact List.Subset.trans (ih hc) (List.subset_append_right _ _)

end Cut

/-! ## Characters that are not finished -/

/-- The bytes may follow where this many are missing and the next one is in these bounds. -/
def Follows : (left : Nat) → (low high : UInt8) → List UInt8 → Prop
  | 0, _, _, bytes => bytes = []
  | left + 1, low, high, bytes =>
    ∃ b rest, bytes = b :: rest ∧ low ≤ b ∧ b ≤ high ∧ Follows left 0x80 0xBF rest

/-- The value behind some bytes more. -/
def valueBehind (value : Nat) (bytes : List UInt8) : Nat :=
  bytes.foldl (fun v b => v * 64 + b.toNat % 64) value

/-- The bytes are those that were read of a character: whatever bytes may follow, they make it a
character of this value. -/
inductive Awaits : List UInt8 → Pending → Prop
  | idle : Awaits [] .idle
  | more {bytes : List UInt8} {left : Nat} {low high : UInt8} {value : Nat} (hne : bytes ≠ [])
      (hlow : 0x80 ≤ low)
      (h : ∀ rest, Follows (left + 1) low high rest → ∃ c : Char,
        String.utf8EncodeChar c = bytes ++ rest ∧ c.toNat = valueBehind value rest) :
      Awaits bytes (.more (left + 1) low high value)

/-- The first bytes of characters, by how many follow. -/
theorem start_cases (b : UInt8) :
    (b.toNat < 0x80 ∧ Pending.start b = (.idle, [some (Char.ofNat b.toNat)])) ∨
    (0xC2 ≤ b.toNat ∧ b.toNat < 0xE0 ∧
      Pending.start b = (.more 1 0x80 0xBF (b.toNat % 0x20), [])) ∨
    (0xE0 ≤ b.toNat ∧ b.toNat < 0xF0 ∧ Pending.start b =
      (.more 2 (if b.toNat = 0xE0 then 0xA0 else 0x80) (if b.toNat = 0xED then 0x9F else 0xBF)
        (b.toNat % 0x10), [])) ∨
    (0xF0 ≤ b.toNat ∧ b.toNat < 0xF5 ∧ Pending.start b =
      (.more 3 (if b.toNat = 0xF0 then 0x90 else 0x80) (if b.toNat = 0xF4 then 0x8F else 0xBF)
        (b.toNat % 8), [])) ∨
    (0x80 ≤ b.toNat ∧ (b.toNat < 0xC2 ∨ 0xF5 ≤ b.toNat) ∧ Pending.start b = (.idle, [none])) := by
  unfold Pending.start
  generalize b.toNat = n
  simp only [Bool.and_eq_true, decide_eq_true_eq, beq_iff_eq]
  split
  · exact .inl ⟨‹_›, rfl⟩
  split
  · exact .inr (.inl ⟨by omega, by omega, rfl⟩)
  split
  · subst n
    exact .inr (.inr (.inl ⟨by decide, by decide, rfl⟩))
  split
  · subst n
    exact .inr (.inr (.inl ⟨by decide, by decide, rfl⟩))
  split
  · exact .inr (.inr (.inl ⟨by omega, by omega, rfl⟩))
  split
  · subst n
    exact .inr (.inr (.inr (.inl ⟨by decide, by decide, rfl⟩)))
  split
  · rw [if_neg (by omega : ¬ n = 0xF4)]
    exact .inr (.inr (.inr (.inl ⟨by omega, by omega, rfl⟩)))
  split
  · subst n
    exact .inr (.inr (.inr (.inl ⟨by decide, by decide, rfl⟩)))
  · exact .inr (.inr (.inr (.inr ⟨by omega, by omega, rfl⟩)))

theorem start_of_lt {b : UInt8} (h : b.toNat < 0x80) :
    Pending.start b = (.idle, [some (Char.ofNat b.toNat)]) := by
  rcases start_cases b with ⟨_, hs⟩ | ⟨_, _, _⟩ | ⟨_, _, _⟩ | ⟨_, _, _⟩ | ⟨_, _, _⟩
  · exact hs
  all_goals omega

/-- A byte is known by its value. -/
theorem ofNat_eq_of_toNat {b : UInt8} {n : Nat} (h : n = b.toNat) : UInt8.ofNat n = b := by
  rw [h, UInt8.ofNat_toNat]

theorem exists_char {n : Nat} (hv : n.isValidChar) : ∃ c : Char, c.toNat = n :=
  ⟨.ofNatAux n hv, rfl⟩

theorem ite_le_iff {p : Prop} [Decidable p] {x y t : UInt8} :
    (if p then x else y) ≤ t ↔ (p → x.toNat ≤ t.toNat) ∧ (¬p → y.toNat ≤ t.toNat) := by
  by_cases h : p <;> simp [h, UInt8.le_iff_toNat_le]

theorem le_ite_iff {p : Prop} [Decidable p] {x y t : UInt8} :
    t ≤ (if p then x else y) ↔ (p → t.toNat ≤ x.toNat) ∧ (¬p → t.toNat ≤ y.toNat) := by
  by_cases h : p <;> simp [h, UInt8.le_iff_toNat_le]

/-- The first byte of a character is kept until the rest follows. -/
theorem awaits_start {b : UInt8} {left : Nat} {low high : UInt8} {value : Nat}
    {out : List (Option Char)} (h : Pending.start b = (.more left low high value, out)) :
    Awaits [b] (.more left low high value) := by
  rcases start_cases b with ⟨_, hs⟩ | ⟨h1, h2, hs⟩ | ⟨h1, h2, hs⟩ | ⟨h1, h2, hs⟩ | ⟨_, _, hs⟩ <;>
    rw [hs] at h <;> cases h
  · refine .more (List.cons_ne_nil _ _) (by decide) ?_
    rintro _ ⟨t, _, rfl, ht, ht', rfl⟩
    simp only [UInt8.le_iff_toNat_le, UInt8.reduceToNat] at ht ht'
    obtain ⟨c, hc⟩ := exists_char (n := b.toNat % 0x20 * 64 + t.toNat % 64) (.inl (by omega))
    refine ⟨c, ?_, hc⟩
    rcases bytes_cases c with ⟨_, _⟩ | ⟨_, _, he⟩ | ⟨_, _, _⟩ | ⟨_, _, _⟩
    · omega
    · rw [he, ofNat_eq_of_toNat (b := b) (by omega), ofNat_eq_of_toNat (b := t) (by omega)]
      rfl
    · omega
    · omega
  · refine .more (List.cons_ne_nil _ _) (by split <;> decide) ?_
    rintro _ ⟨t, _, rfl, ht, ht', u, _, rfl, hu, hu', rfl⟩
    rw [ite_le_iff] at ht
    rw [le_ite_iff] at ht'
    simp only [UInt8.le_iff_toNat_le, UInt8.reduceToNat] at ht ht' hu hu'
    obtain ⟨c, hc⟩ := exists_char
      (n := (b.toNat % 0x10 * 64 + t.toNat % 64) * 64 + u.toNat % 64)
      (by rw [Nat.isValidChar]; omega)
    refine ⟨c, ?_, hc⟩
    rcases bytes_cases c with ⟨_, _⟩ | ⟨_, _, _⟩ | ⟨_, _, he⟩ | ⟨_, _, _⟩
    · omega
    · omega
    · rw [he, ofNat_eq_of_toNat (b := b) (by omega), ofNat_eq_of_toNat (b := t) (by omega),
        ofNat_eq_of_toNat (b := u) (by omega)]
      rfl
    · omega
  · refine .more (List.cons_ne_nil _ _) (by split <;> decide) ?_
    rintro _ ⟨t, _, rfl, ht, ht', u, _, rfl, hu, hu', w, _, rfl, hw, hw', rfl⟩
    rw [ite_le_iff] at ht
    rw [le_ite_iff] at ht'
    simp only [UInt8.le_iff_toNat_le, UInt8.reduceToNat] at ht ht' hu hu' hw hw'
    obtain ⟨c, hc⟩ := exists_char
      (n := ((b.toNat % 8 * 64 + t.toNat % 64) * 64 + u.toNat % 64) * 64 + w.toNat % 64)
      (by rw [Nat.isValidChar]; omega)
    refine ⟨c, ?_, hc⟩
    rcases bytes_cases c with ⟨_, _⟩ | ⟨_, _, _⟩ | ⟨_, _, _⟩ | ⟨_, _, he⟩
    · omega
    · omega
    · omega
    · rw [he, ofNat_eq_of_toNat (b := b) (by omega), ofNat_eq_of_toNat (b := t) (by omega),
        ofNat_eq_of_toNat (b := u) (by omega), ofNat_eq_of_toNat (b := w) (by omega)]
      rfl

theorem toNat_ofNat_of_lt {n : Nat} (h : n < 256) : (UInt8.ofNat n).toNat = n := by
  rw [UInt8.toNat_ofNat', Nat.mod_eq_of_lt h]

/-- Six bits of a value make a byte that may follow. -/
theorem follows_cons {n left : Nat} {low high : UInt8} {rest : List UInt8}
    (hlow : low.toNat ≤ n % 64 + 128) (hhigh : n % 64 + 128 ≤ high.toNat)
    (hrest : Follows left 0x80 0xBF rest) :
    Follows (left + 1) low high (UInt8.ofNat (n % 64 + 128) :: rest) := by
  have hn := toNat_ofNat_of_lt (n := n % 64 + 128) (by omega)
  refine ⟨_, rest, rfl, ?_, ?_, hrest⟩
  · rwa [UInt8.le_iff_toNat_le, hn]
  · rwa [UInt8.le_iff_toNat_le, hn]

theorem follows_tail (n : Nat) {left : Nat} {rest : List UInt8} (h : Follows left 0x80 0xBF rest) :
    Follows (left + 1) 0x80 0xBF (UInt8.ofNat (n % 64 + 128) :: rest) := by
  refine follows_cons (Nat.le_add_left _ _) ?_ h
  change n % 64 + 128 ≤ 0xBF
  omega

/-- A character has one byte that finishes it, or its other bytes may follow the first. -/
theorem exists_start (c : Char) :
    (∃ b, String.utf8EncodeChar c = [b] ∧ Pending.start b = (.idle, [some c])) ∨
    ∃ b rest left low high value, String.utf8EncodeChar c = b :: rest ∧
      Pending.start b = (.more (left + 1) low high value, []) ∧
      Follows (left + 1) low high rest ∧ valueBehind value rest = c.toNat := by
  have hdigit (n : Nat) : (UInt8.ofNat (n % 64 + 128)).toNat % 64 = n % 64 := by
    rw [toNat_ofNat_of_lt (by omega)]
    omega
  rcases bytes_cases c with ⟨h, he⟩ | ⟨h, h', he⟩ | ⟨h, h', he⟩ | ⟨h, h', he⟩
  · have hb := toNat_ofNat_of_lt (n := c.toNat) (by omega)
    exact .inl ⟨_, he, by rw [start_of_lt (by omega), hb, Char.ofNat_toNat]⟩
  · have hb := toNat_ofNat_of_lt (n := c.toNat / 64 + 192) (by omega)
    rcases start_cases (UInt8.ofNat (c.toNat / 64 + 192)) with
      ⟨_, _⟩ | ⟨_, _, hs⟩ | ⟨_, _, _⟩ | ⟨_, _, _⟩ | ⟨_, _, _⟩
    · omega
    · refine .inr ⟨_, _, _, _, _, _, he, hs, follows_tail _ rfl, ?_⟩
      rw [valueBehind, List.foldl_cons, List.foldl_nil, hdigit, hb]
      omega
    all_goals omega
  · have hb := toNat_ofNat_of_lt (n := c.toNat / 4096 + 224) (by omega)
    rcases start_cases (UInt8.ofNat (c.toNat / 4096 + 224)) with
      ⟨_, _⟩ | ⟨_, _, _⟩ | ⟨_, _, hs⟩ | ⟨_, _, _⟩ | ⟨_, _, _⟩
    · omega
    · omega
    · rw [hb] at hs
      refine .inr ⟨_, _, _, _, _, _, he, hs, follows_cons ?_ ?_ (follows_tail _ rfl), ?_⟩
      · split
        · change 0xA0 ≤ _
          omega
        · exact Nat.le_add_left _ _
      · have hvalid : c.toNat < 0xD800 ∨ 0xDFFF < c.toNat ∧ c.toNat < 0x110000 := c.valid
        split
        · change _ ≤ 0x9F
          omega
        · change _ ≤ 0xBF
          omega
      · rw [valueBehind, List.foldl_cons, List.foldl_cons, List.foldl_nil, hdigit, hdigit]
        omega
    all_goals omega
  · have hb := toNat_ofNat_of_lt (n := c.toNat / 262144 + 240) (by omega)
    rcases start_cases (UInt8.ofNat (c.toNat / 262144 + 240)) with
      ⟨_, _⟩ | ⟨_, _, _⟩ | ⟨_, _, _⟩ | ⟨_, _, hs⟩ | ⟨_, _, _⟩
    · omega
    · omega
    · omega
    · rw [hb] at hs
      refine .inr ⟨_, _, _, _, _, _, he, hs,
        follows_cons ?_ ?_ (follows_tail _ (follows_tail _ rfl)), ?_⟩
      · split
        · change 0x90 ≤ _
          omega
        · exact Nat.le_add_left _ _
      · split
        · change _ ≤ 0x8F
          omega
        · change _ ≤ 0xBF
          omega
      · rw [valueBehind, List.foldl_cons, List.foldl_cons, List.foldl_cons, List.foldl_nil, hdigit,
          hdigit, hdigit]
        omega
    · omega

/-! ## Reading on -/

/-- What is given out when no more bytes follow. -/
def atEnd : Pending → List (Option Char)
  | .idle => []
  | .more .. => [none]

/-- The pieces of bytes behind a character of which some bytes are read. -/
def piecesFrom : Pending → List UInt8 → List (Option Char)
  | p, [] => atEnd p
  | p, b :: rest => (p.feed b).2 ++ piecesFrom (p.feed b).1 rest

/-- What is given out is gathered in reverse. -/
theorem foldl_feed (bytes : List UInt8) (r : Pending × List (Option Char)) :
    let r' := bytes.foldl (fun r b => ((r.1.feed b).1, (r.1.feed b).2.reverse ++ r.2)) r
    r'.2.reverse ++ atEnd r'.1 = r.2.reverse ++ piecesFrom r.1 bytes := by
  induction bytes generalizing r with
  | nil => rfl
  | cons b bytes ih =>
    refine (ih ((r.1.feed b).1, (r.1.feed b).2.reverse ++ r.2)).trans ?_
    rw [List.reverse_append, List.reverse_reverse, List.append_assoc, piecesFrom]

theorem pieces_eq (bytes : List UInt8) : pieces bytes = piecesFrom .idle bytes := by
  have h := foldl_feed bytes (.idle, [])
  rw [List.reverse_nil, List.nil_append] at h
  rw [← h, pieces]
  split
  rename_i p out heq
  change bytes.foldl (fun r b => ((r.1.feed b).1, (r.1.feed b).2.reverse ++ r.2)) (.idle, []) =
    (p, out) at heq
  rw [heq]
  cases p with
  | idle => exact (List.append_nil _).symm
  | more => exact List.reverse_cons

theorem feed_of_mem {left : Nat} {low high : UInt8} {value : Nat} {b : UInt8}
    (h : low ≤ b ∧ b ≤ high) : Pending.feed (.more (left + 1) low high value) b =
      if left = 0 then (.idle, [some (Char.ofNat (value * 64 + b.toNat % 64))])
      else (.more left 0x80 0xBF (value * 64 + b.toNat % 64), []) := by
  have hin : (low ≤ b && b ≤ high) = true := by simpa using h
  rw [Pending.feed, if_pos hin]
  cases left <;> simp

theorem feed_of_not_mem {left : Nat} {low high : UInt8} {value : Nat} {b : UInt8}
    (h : ¬(low ≤ b ∧ b ≤ high)) : Pending.feed (.more left low high value) b =
      ((Pending.start b).1, none :: (Pending.start b).2) := by
  have hout : ¬(low ≤ b && b ≤ high) = true := by simpa using h
  rw [Pending.feed, if_neg hout]

/-- The first byte of a character is given out as one, kept, or no character. -/
theorem exists_cut_start (b : UInt8) : ∃ out kept, [b] = out ++ kept ∧
    Cut out (Pending.start b).2 ∧ Awaits kept (Pending.start b).1 := by
  rcases start_cases b with ⟨hb, hs⟩ | ⟨_, _, hs⟩ | ⟨_, _, hs⟩ | ⟨_, _, hs⟩ | ⟨_, _, hs⟩
  · obtain ⟨c, hc⟩ := exists_char (n := b.toNat) (.inl (by omega))
    have hbytes : String.utf8EncodeChar c = [b] := by
      rcases bytes_cases c with ⟨_, he⟩ | ⟨_, _, _⟩ | ⟨_, _, _⟩ | ⟨_, _, _⟩
      · rw [he, ofNat_eq_of_toNat hc]
      all_goals omega
    rw [hs, ← hc, Char.ofNat_toNat]
    have hcut := Cut.nil.char c
    rw [hbytes] at hcut
    exact ⟨[b], [], rfl, hcut, .idle⟩
  · exact ⟨[], [b], rfl, by rw [hs]; exact .nil, by rw [hs]; exact awaits_start hs⟩
  · exact ⟨[], [b], rfl, by rw [hs]; exact .nil, by rw [hs]; exact awaits_start hs⟩
  · exact ⟨[], [b], rfl, by rw [hs]; exact .nil, by rw [hs]; exact awaits_start hs⟩
  · rw [hs]
    exact ⟨[b], [], rfl, Cut.nil.run (List.cons_ne_nil b []), .idle⟩

/-- One more byte: what was read is cut into what is given out and what is kept. -/
theorem Awaits.feed {bytes : List UInt8} {p : Pending} (h : Awaits bytes p) (b : UInt8) :
    ∃ out kept, bytes ++ [b] = out ++ kept ∧ Cut out (p.feed b).2 ∧ Awaits kept (p.feed b).1 := by
  cases h with
  | idle => exact exists_cut_start b
  | @more bytes left low high value hne hlow h =>
    by_cases hb : low ≤ b ∧ b ≤ high
    · rw [feed_of_mem hb]
      cases left with
      | zero =>
        obtain ⟨c, hbytes, hc⟩ := h [b] ⟨b, [], rfl, hb.1, hb.2, rfl⟩
        have hcut := Cut.nil.char c
        rw [hbytes, List.append_nil] at hcut
        refine ⟨bytes ++ [b], [], (List.append_nil _).symm, ?_, .idle⟩
        rw [← Char.ofNat_toNat c, hc] at hcut
        exact hcut
      | succ left =>
        refine ⟨[], bytes ++ [b], rfl, .nil, .more (by simp) (by decide) fun rest hrest => ?_⟩
        obtain ⟨c, hbytes, hc⟩ := h (b :: rest) ⟨b, rest, rfl, hb.1, hb.2, hrest⟩
        exact ⟨c, by rw [hbytes, List.append_cons], hc⟩
    · -- what was read is no character, and the byte may begin another one
      obtain ⟨out, kept, heq, hout, hkept⟩ := exists_cut_start b
      rw [feed_of_not_mem hb]
      exact ⟨bytes ++ out, kept, by rw [List.append_assoc, ← heq], hout.run hne, hkept⟩

theorem cut_piecesFrom {bytes rest : List UInt8} {p : Pending} (h : Awaits bytes p) :
    Cut (bytes ++ rest) (piecesFrom p rest) := by
  induction rest generalizing bytes p with
  | nil =>
    rw [List.append_nil]
    cases h with
    | idle => exact .nil
    | more hne =>
      have hcut := Cut.nil.run hne
      rwa [List.append_nil] at hcut
  | cons b rest ih =>
    obtain ⟨out, kept, heq, hout, hkept⟩ := h.feed b
    rw [List.append_cons, heq, List.append_assoc]
    exact hout.append (ih hkept)

/-- The pieces of any bytes stand for all of them. -/
theorem cut_pieces (bytes : List UInt8) : Cut bytes (pieces bytes) := by
  rw [pieces_eq]
  exact cut_piecesFrom .idle

/-! ## Texts -/

theorem piecesFrom_follows {left : Nat} {low high : UInt8} {value : Nat} {bytes : List UInt8}
    (h : Follows (left + 1) low high bytes) (rest : List UInt8) :
    piecesFrom (.more (left + 1) low high value) (bytes ++ rest) =
      some (Char.ofNat (valueBehind value bytes)) :: piecesFrom .idle rest := by
  induction left generalizing low high value bytes with
  | zero =>
    obtain ⟨b, _, rfl, hlow, hhigh, rfl⟩ := h
    rw [List.cons_append, piecesFrom, feed_of_mem ⟨hlow, hhigh⟩]
    rfl
  | succ left ih =>
    obtain ⟨b, bytes, rfl, hlow, hhigh, hbytes⟩ := h
    rw [List.cons_append, piecesFrom, feed_of_mem ⟨hlow, hhigh⟩]
    exact ih hbytes

theorem piecesFrom_char (c : Char) (rest : List UInt8) :
    piecesFrom .idle (String.utf8EncodeChar c ++ rest) = some c :: piecesFrom .idle rest := by
  rcases exists_start c with ⟨b, he, hs⟩ | ⟨b, bytes, left, low, high, value, he, hs, hf, hv⟩
  · rw [he, List.singleton_append, piecesFrom, Pending.feed, hs]
    rfl
  · rw [he, List.cons_append, piecesFrom, Pending.feed, hs]
    refine (piecesFrom_follows hf rest).trans ?_
    rw [hv, Char.ofNat_toNat]

/-- The pieces of a text are its characters. -/
theorem pieces_encode (s : String) : pieces (encode s) = s.toList.map some := by
  rw [encode_eq, pieces_eq]
  induction s.toList with
  | nil => rfl
  | cons c cs ih => rw [List.flatMap_cons, piecesFrom_char, ih, List.map_cons]

theorem decodeLossy_encode (s : String) : decodeLossy (encode s) = s := by
  rw [decodeLossy, pieces_encode, List.map_map]
  exact (congrArg String.ofList (List.map_id _)).trans String.ofList_toList

theorem eq_encode_of_decode? {bytes : List UInt8} {s : String} (h : decode? bytes = some s) :
    bytes = encode s := by
  rw [decode?, String.fromUTF8?] at h
  split at h
  · cases h
    simp [encode, String.toUTF8, String.fromUTF8]
  · cases h

/-- Bytes are no text exactly if one of their pieces is no character. -/
theorem decode?_eq_none_iff {bytes : List UInt8} : decode? bytes = none ↔ none ∈ pieces bytes := by
  constructor
  · intro h
    refine Classical.byContradiction fun hn => ?_
    obtain ⟨cs, -, hbytes⟩ := (cut_pieces bytes).exists_chars hn
    rw [hbytes, ← encode_ofList, decode?_encode] at h
    cases h
  · intro hn
    cases hd : decode? bytes with
    | none => rfl
    | some s =>
      rw [eq_encode_of_decode? hd, pieces_encode] at hn
      simp at hn

/-! ## Bytes between texts -/

/-- A byte below 0x80 is a character, whatever stands around it. -/
theorem piecesFrom_append_cons {b : UInt8} (hb : b.toNat < 0x80) {kept : List UInt8} {p : Pending}
    (h : Awaits kept p) (bytes rest : List UInt8) : piecesFrom p (bytes ++ b :: rest) =
      piecesFrom p bytes ++ some (Char.ofNat b.toNat) :: piecesFrom .idle rest := by
  have hstart := start_of_lt hb
  induction bytes generalizing kept p with
  | nil =>
    cases h with
    | idle =>
      have hfeed : Pending.feed .idle b = Pending.start b := rfl
      rw [List.nil_append, piecesFrom, piecesFrom, hfeed, hstart]
      rfl
    | @more _ left low high _ _ hlow =>
      have hout : ¬(low ≤ b ∧ b ≤ high) := fun hb' => by
        have hle : 0x80 ≤ b.toNat := UInt8.le_iff_toNat_le.1 (UInt8.le_trans hlow hb'.1)
        omega
      rw [List.nil_append, piecesFrom, piecesFrom, feed_of_not_mem hout, hstart]
      rfl
  | cons x bytes ih =>
    obtain ⟨_, kept, -, -, hkept⟩ := h.feed x
    rw [List.cons_append, piecesFrom, piecesFrom, ih hkept, List.append_assoc]

theorem pieces_append_cons {b : UInt8} (hb : b.toNat < 0x80) (bytes rest : List UInt8) :
    pieces (bytes ++ b :: rest) = pieces bytes ++ some (Char.ofNat b.toNat) :: pieces rest := by
  rw [pieces_eq, pieces_eq, pieces_eq]
  exact piecesFrom_append_cons hb .idle bytes rest

theorem toList_decodeLossy (bytes : List UInt8) :
    (decodeLossy bytes).toList = (pieces bytes).map (·.getD '\uFFFD') := String.toList_ofList

theorem decodeLossy_append_cons {b : UInt8} (hb : b.toNat < 0x80) (bytes rest : List UInt8) :
    (decodeLossy (bytes ++ b :: rest)).toList =
      (decodeLossy bytes).toList ++ Char.ofNat b.toNat :: (decodeLossy rest).toList := by
  simp [toList_decodeLossy, pieces_append_cons hb]

/-! ## Lines of bytes -/

/-- A line feed is read of a line feed only. -/
theorem mem_of_lineFeed_mem_decodeLossy {bytes : List UInt8}
    (h : '\n' ∈ (decodeLossy bytes).toList) : 10 ∈ bytes := by
  rw [toList_decodeLossy, List.mem_map] at h
  obtain ⟨piece, hp, heq⟩ := h
  cases piece with
  | none => exact absurd heq (by decide)
  | some c =>
    obtain rfl : c = '\n' := heq
    exact (cut_pieces bytes).bytes_subset hp (by decide)

/-- What lies between line feeds is read by itself. -/
theorem splitOn_decodeLossy (bytes : List UInt8) : (decodeLossy bytes).toList.splitOn '\n' =
    (bytes.splitOn 10).map fun part => (decodeLossy part).toList := by
  induction bytes using cut_induction (a := (10 : UInt8)) with
  | piece part hpart =>
    rw [List.splitOn_eq_singleton fun h => hpart (mem_of_lineFeed_mem_decodeLossy h),
      List.splitOn_eq_singleton hpart]
    rfl
  | cut s t hs ht =>
    rw [decodeLossy_append_cons (by decide), List.splitOn_append_cons_self, List.map_append, ← hs,
      ← ht]
    exact List.splitOn_append_cons_self ..

/-- The lines of bytes that are not blank are read one by one. -/
theorem tightLines_decodeLossy (bytes : List UInt8) : tightLines (decodeLossy bytes).toList =
    (lines 10 13 bytes).filterMap fun line => tight? (decodeLossy line).toList := by
  have hcr (line : List UInt8) : tight? (decodeLossy (line ++ [13])).toList =
      tight? (decodeLossy line).toList := by
    rw [decodeLossy_append_cons (by decide)]
    exact tight?_congr (trim_concat (by decide) _)
  rw [filterMap_lines (f := fun line => tight? (decodeLossy line).toList) hcr rfl, tightLines_eq,
    splitOn_decodeLossy, List.filterMap_map]
  rfl

theorem none_mem_pieces_append_cons {b : UInt8} (hb : b.toNat < 0x80) (bytes rest : List UInt8) :
    none ∈ pieces (bytes ++ b :: rest) ↔ none ∈ pieces bytes ∨ none ∈ pieces rest := by
  simp [pieces_append_cons hb]

/-- Bytes are no text exactly if one of their lines is none. -/
theorem decode?_eq_none_iff_exists_line {bytes : List UInt8} :
    decode? bytes = none ↔ ∃ line ∈ lines 10 13 bytes, decode? line = none := by
  have hparts : none ∈ pieces bytes ↔ ∃ part ∈ bytes.splitOn 10, none ∈ pieces part := by
    induction bytes using cut_induction (a := (10 : UInt8)) with
    | piece part hpart => simp [List.splitOn_eq_singleton hpart]
    | cut s t hs ht =>
      rw [none_mem_pieces_append_cons (by decide), List.splitOn_append_cons_self, hs, ht]
      simp [or_and_right, exists_or]
  -- a carriage return at the end of a line is a character of its own
  let f (line : List UInt8) : Option Unit := if none ∈ pieces line then some () else none
  have hcr (line : List UInt8) : f (line ++ [13]) = f line := by
    have hmem : none ∈ pieces (line ++ [13]) ↔ none ∈ pieces line := by
      rw [none_mem_pieces_append_cons (by decide)]
      exact or_iff_left (by decide)
    simp only [f, hmem]
  have hf (line : List UInt8) : f line = some () ↔ none ∈ pieces line := by simp [f]
  have hlines : () ∈ (lines 10 13 bytes).filterMap f ↔ () ∈ (bytes.splitOn 10).filterMap f := by
    rw [filterMap_lines hcr rfl]
  simp only [List.mem_filterMap, hf] at hlines
  simp only [decode?_eq_none_iff]
  exact hparts.trans hlines.symm

end ImageRelay.Text.Utf8
