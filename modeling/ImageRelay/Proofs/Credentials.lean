import ImageRelay.Credentials
import ImageRelay.Proofs.Base64
import ImageRelay.Proofs.Json.Records

/-!
# Reading credentials back

`ofHeader_header`: the header of credentials is read back as these credentials, whatever characters
the user name and the password are made of. `header_read_back` says this with blanks around the
header, and what the header is made of.
-/

set_option autoImplicit false

namespace ImageRelay

namespace Credentials

theorem ofWritten?_json (c : Credentials) :
    (Json.Written.parse (Text.Utf8.encode c.json)).bind ofWritten? = some c := by
  obtain ⟨ms, hms, hparse⟩ := Json.parse_objectText
    [("username", c.username), ("password", c.password)]
  obtain ⟨r, hr, hhas⟩ := Json.record_of_texts hms ["username", "password"] (by simp) (by simp)
  have hj : Json.Written.parse (Text.Utf8.encode c.json) = some (.object ms) := hparse
  have hu : r.text "username" = some c.username := hhas.text "username"
  have hp : r.text "password" = some c.password := hhas.text "password"
  simp [hj, ofWritten?, hr, hu, hp]

theorem isBlank_header {c : Credentials} {x : Char} (h : x ∈ c.header.toList) :
    Text.isBlank x = false := by
  rw [header, String.toList_ofList] at h
  have hblank : ∀ n < 64, Text.isBlank (Base64.urlSafe.char n) = false := by decide
  rcases Base64.mem_encode h with rfl | ⟨n, hn, rfl⟩
  · rfl
  · exact hblank n hn

theorem ofHeader_header (c : Credentials) : ofHeader c.header = .ok c := by
  have htrim : Text.trim c.header.toList = c.header.toList :=
    Text.trim_eq_self (fun x hx => isBlank_header (List.mem_of_head? hx))
      fun x hx => isBlank_header (List.mem_of_getLast? hx)
  have hdecode : Base64.decode? Base64.urlSafe c.header.toList =
      some (Text.Utf8.encode c.json) := by
    rw [header, String.toList_ofList, Base64.decode?_encode Base64.proper_urlSafe]
  rw [ofHeader, htrim, hdecode]
  simp only [ofWritten?_json]

theorem ofHeader_empty_ne (c : Credentials) : ofHeader "" ≠ .ok c := by
  have hdecode : Base64.decode? Base64.urlSafe (Text.trim "".toList) = some [] := by decide
  have hparse : (Json.Written.parse []).bind ofWritten? = none := by decide
  rw [ofHeader, hdecode]
  simp [hparse]

theorem header_ne_empty (c : Credentials) : c.header ≠ "" :=
  fun h => ofHeader_empty_ne c (h ▸ c.ofHeader_header)

/-- Blanks around a header make no difference. -/
theorem ofHeader_append_blanks {before after : String} (hb : ∀ x ∈ before.toList, Text.isBlank x)
    (ha : ∀ x ∈ after.toList, Text.isBlank x) (header : String) :
    ofHeader (before ++ header ++ after) = ofHeader header := by
  rw [ofHeader, ofHeader, String.toList_append, String.toList_append,
    Text.trim_append_blanks hb ha]

/-- The characters of the values are letters, digits, `-` and `_`. -/
theorem urlSafe_char : ∀ n < 64, (Base64.urlSafe.char n).isAlphanum ∨
    Base64.urlSafe.char n = '-' ∨ Base64.urlSafe.char n = '_' := by decide

/-- **Headers of credentials**: a header is a text of the URL-safe alphabet with its padding, and
is read back as the credentials it was written for, whatever blanks stand around it. -/
theorem header_read_back (c : Credentials) :
    c.header ≠ "" ∧
    (∃ body padding, c.header.toList = body ++ List.replicate padding '=' ∧ padding ≤ 2 ∧
      (body.length + padding) % 4 = 0 ∧ ∀ x ∈ body, x.isAlphanum ∨ x = '-' ∨ x = '_') ∧
    ∀ before after : String, (∀ x ∈ before.toList, Text.isBlank x) →
      (∀ x ∈ after.toList, Text.isBlank x) → ofHeader (before ++ c.header ++ after) = .ok c := by
  refine ⟨c.header_ne_empty, ?_, fun before after hb ha => ?_⟩
  · obtain ⟨body, padding, heq, hpad, hlen, hbody⟩ :=
      Base64.encode_eq_append Base64.urlSafe (Text.Utf8.encode c.json)
    refine ⟨body, padding, by rw [header, String.toList_ofList, heq], hpad, hlen, fun x hx => ?_⟩
    obtain ⟨n, hn, rfl⟩ := hbody x hx
    exact urlSafe_char n hn
  · rw [ofHeader_append_blanks hb ha, c.ofHeader_header]

/-- A header between line ends and blanks, of a name with quotes and a password with a backslash, a
letter of two bytes and a line end. -/
theorem header_read_back_escapes :
    (∀ x ∈ "\n ".toList, Text.isBlank x) ∧
    ofHeader ("\n " ++ (⟨"ci \"bot\"", "p\\ä\n"⟩ : Credentials).header ++ "\n ") =
      .ok ⟨"ci \"bot\"", "p\\ä\n"⟩ := by
  have hb : ∀ x ∈ "\n ".toList, Text.isBlank x := by simp [Text.isBlank]
  exact ⟨hb, (header_read_back ⟨"ci \"bot\"", "p\\ä\n"⟩).2.2 _ _ hb hb⟩

end Credentials

end ImageRelay
