import ImageRelay.Json.Written
import ImageRelay.Proofs.Text.Bytes

/-!
# Reading written strings back

`quote` writes every character as pieces that spell its bytes (`Spells`, `passes_writtenChar`), so a
written string is read back as the text that it was written for (`value_quote`).
-/

set_option autoImplicit false

namespace ImageRelay.Json

open Text.Utf8

/-! ## Pieces of strings -/

/-- The pieces stand for these bytes, whatever pieces follow them. -/
def Spells (ps : List Piece) (bytes : List UInt8) : Prop :=
  ∀ more, bytesOf? (ps ++ more) = (bytesOf? more).map (bytes ++ ·)

theorem spells_nil : Spells [] [] := fun more => by simp

theorem Spells.append {ps qs : List Piece} {xs ys : List UInt8} (h : Spells ps xs)
    (h' : Spells qs ys) : Spells (ps ++ qs) (xs ++ ys) := fun more => by
  rw [List.append_assoc, h, h', Option.map_map]
  simp [Function.comp_def]

theorem spells_bytes (bytes : List UInt8) : Spells (bytes.map .byte) bytes := by
  induction bytes with
  | nil => exact spells_nil
  | cons b bytes ih =>
    intro more
    rw [List.map_cons, List.cons_append, bytesOf?, ih, Option.map_map]
    rfl

theorem spells_escape {c : Char} (h : c.toNat < 0x20) :
    Spells [.escape c.toNat] (String.utf8EncodeChar c) := by
  intro more
  have hc : charBytes c.toNat = String.utf8EncodeChar c := by rw [charBytes, Char.ofNat_toNat]
  have hhigh : ¬ (0xD800 ≤ c.toNat ∧ c.toNat ≤ 0xDBFF) := by omega
  have hlow : ¬ (0xDC00 ≤ c.toNat ∧ c.toNat ≤ 0xDFFF) := by omega
  rw [List.singleton_append, bytesOf?.eq_def]
  simp [hhigh, hlow, hc]

namespace Written

/-- What is read of a string goes on behind some pieces that spell these bytes. -/
def Passes (text bytes : List UInt8) : Prop :=
  ∀ (acc : List Piece) (rest : List UInt8), ∃ ps, Spells ps bytes ∧
    stringPieces .plain acc (text ++ rest) = stringPieces .plain (ps.reverse ++ acc) rest

theorem passes_nil : Passes [] [] := fun _ _ => ⟨[], spells_nil, rfl⟩

theorem Passes.append {text text' xs ys : List UInt8} (h : Passes text xs) (h' : Passes text' ys) :
    Passes (text ++ text') (xs ++ ys) := by
  intro acc rest
  obtain ⟨ps, hp, he⟩ := h acc (text' ++ rest)
  obtain ⟨qs, hq, he'⟩ := h' (ps.reverse ++ acc) rest
  refine ⟨ps ++ qs, hp.append hq, ?_⟩
  rw [List.append_assoc, he, he', List.reverse_append, List.append_assoc]

/-- Bytes that mean themselves in a string. -/
theorem passes_plain {bytes : List UInt8}
    (h : ∀ b ∈ bytes, b ≠ 0x22 ∧ b ≠ 0x5C ∧ ¬ b < 0x20) : Passes bytes bytes := by
  induction bytes with
  | nil => exact passes_nil
  | cons b bytes ih =>
    obtain ⟨hq, hs, hc⟩ := h b List.mem_cons_self
    have hb : Passes [b] [b] := fun acc rest =>
      ⟨[.byte b], spells_bytes [b], by simp [stringPieces, hq, hs, hc]⟩
    exact hb.append (ih fun b' hb' => h b' (List.mem_cons_of_mem _ hb'))

/-- The bytes of a character other than controls, quotes and backslashes mean themselves. -/
theorem passes_char {c : Char} (hc : 0x20 ≤ c.toNat) (hq : c ≠ '"') (hs : c ≠ '\\') :
    Passes (String.utf8EncodeChar c) (String.utf8EncodeChar c) := by
  refine passes_plain fun b hb => ?_
  have hq' : c.toNat ≠ 0x22 := fun h => hq (Char.toNat_inj.1 h)
  have hs' : c.toNat ≠ 0x5C := fun h => hs (Char.toNat_inj.1 h)
  have hb' := toNat_of_mem_bytes hb
  refine ⟨?_, ?_, ?_⟩
  · rintro rfl
    simp at hb'
    omega
  · rintro rfl
    simp at hb'
    omega
  · rw [UInt8.lt_iff_toNat_lt]
    simp
    omega

theorem passes_short {b c : UInt8} (hu : b ≠ byteOf 'u') (h : shortEscape? b = some c) :
    Passes [0x5C, b] [c] := fun acc rest =>
  ⟨[.byte c], spells_bytes [c], by simp [stringPieces, hu, h]⟩

theorem passes_long {c : Char} (hc : c.toNat < 0x20) {b b' : UInt8}
    (h : hexDigit? b = some (c.toNat / 16)) (h' : hexDigit? b' = some (c.toNat % 16)) :
    Passes [0x5C, 0x75, 0x30, 0x30, b, b'] (String.utf8EncodeChar c) := by
  intro acc rest
  refine ⟨[.escape c.toNat], spells_escape hc, ?_⟩
  have h0 : hexDigit? 0x30 = some 0 := rfl
  have hsum : 16 * (c.toNat / 16) + c.toNat % 16 = c.toNat := Nat.div_add_mod _ _
  have hu : byteOf 'u' = 0x75 := rfl
  simp [stringPieces, h, h', h0, hu, hsum]

theorem hexDigit?_hexChar : ∀ n < 16, ∃ b, String.utf8EncodeChar (hexChar n) = [b] ∧
    hexDigit? b = some n := by
  intro n hn
  refine ⟨UInt8.ofNat (hexChar n).toNat, ?_, ?_⟩ <;> (revert n; decide)

/-- Every character is written as what spells its bytes. -/
theorem passes_writtenChar (c : Char) :
    Passes ((writtenChar c).flatMap String.utf8EncodeChar) (String.utf8EncodeChar c) := by
  unfold writtenChar
  split
  · subst c; exact passes_short (b := 0x22) (by decide) rfl
  split
  · subst c; exact passes_short (b := 0x5C) (by decide) rfl
  split
  · subst c; exact passes_short (b := 0x62) (by decide) rfl
  split
  · subst c; exact passes_short (b := 0x66) (by decide) rfl
  split
  · subst c; exact passes_short (b := 0x6E) (by decide) rfl
  split
  · subst c; exact passes_short (b := 0x72) (by decide) rfl
  split
  · subst c; exact passes_short (b := 0x74) (by decide) rfl
  split
  · rename_i hc
    obtain ⟨b, hb, hd⟩ := hexDigit?_hexChar (c.toNat / 16) (by omega)
    obtain ⟨b', hb', hd'⟩ := hexDigit?_hexChar (c.toNat % 16) (by omega)
    have hbytes : ['\\', 'u', '0', '0', hexChar (c.toNat / 16), hexChar (c.toNat % 16)].flatMap
        String.utf8EncodeChar = [0x5C, 0x75, 0x30, 0x30, b, b'] := by
      simp only [List.flatMap_cons, List.flatMap_nil, hb, hb']
      rfl
    rw [hbytes]
    exact passes_long hc hd hd'
  · rename_i hq hs _ _ _ _ _ hc
    simpa using passes_char (Nat.not_lt.1 hc) hq hs

theorem passes_written (cs : List Char) :
    Passes ((cs.flatMap writtenChar).flatMap String.utf8EncodeChar)
      (cs.flatMap String.utf8EncodeChar) := by
  induction cs with
  | nil => exact passes_nil
  | cons c cs ih =>
    rw [List.flatMap_cons, List.flatMap_append, List.flatMap_cons]
    exact (passes_writtenChar c).append ih

end Written

/-! ## Written strings -/

/-- The pieces of a written string stand for its text. -/
theorem stringPieces_quote (s : String) (rest : List UInt8) : ∃ body ps,
    encode (quote s) = 0x22 :: body ∧ textOf? ps = some s ∧
      Written.stringPieces .plain [] (body ++ rest) = some (ps, rest) := by
  obtain ⟨ps, hp, he⟩ := Written.passes_written s.toList [] (0x22 :: rest)
  refine ⟨(s.toList.flatMap writtenChar).flatMap String.utf8EncodeChar ++ [0x22], ps, ?_, ?_, ?_⟩
  · have hquote : encode "\"" = [0x22] := rfl
    rw [quote, encode_append, encode_append, hquote, encode_ofList]
    rfl
  · have hb := hp []
    rw [List.append_nil] at hb
    simp [textOf?, hb, bytesOf?, ← encode_eq, decode?_encode]
  · simpa [Written.stringPieces] using he

theorem skip_cons {b : UInt8} (h : Written.isSpace b = false) (rest : List UInt8) :
    Written.skip (b :: rest) = b :: rest := by
  rw [Written.skip, List.dropWhile_cons, h]
  rfl

/-- A written string is read as a value. -/
theorem value_quote (s : String) (fuel : Nat) (rest : List UInt8) : ∃ ps, textOf? ps = some s ∧
    Written.value (fuel + 1) (encode (quote s) ++ rest) = some (.string ps, rest) := by
  obtain ⟨body, ps, hbody, hps, hread⟩ := stringPieces_quote s rest
  refine ⟨ps, hps, ?_⟩
  rw [hbody, List.cons_append, Written.value, skip_cons rfl]
  simp [hread]

end ImageRelay.Json
