import Colloquy.Proofs.Cipher.Reading
import Colloquy.Proofs.Cipher.Written
import Colloquy.Proofs.Room
import Colloquy.Proofs.Text.Utf8
/-!
# Which texts are stored keys

A room key is read from one text, its written form, and from nothing else but
that text with blanks around it. Reading base64 takes the written form of bytes
alone (`Base64.tells_decode`), trimming takes off blanks alone, and a key has 32
bytes by its type.
-/

namespace Colloquy.RoomKey

/-- The key that is read is the key whose text it is. -/
theorem decode_eq_ok_iff (text : String) (key : RoomKey) :
    decode text = .ok key ↔ Text.trim text = key.encode := by
  refine ⟨fun h => ?_, decode_of_trim⟩
  rw [decode] at h
  cases hread : Base64.decode (Text.Utf8.encode (Text.trim text)) with
  | error fault => rw [hread] at h; cases h
  | ok bytes =>
    rw [hread] at h
    by_cases hlength : bytes.length = 32
    · simp only [ofBytes?, dif_pos hlength, Except.ok.injEq] at h
      have hbytes : key.bytes = bytes := by rw [← h]
      refine Text.Utf8.encode_injective ?_
      rw [utf8_encode, hbytes]
      exact Base64.eq_encodeBytes_of_decode hread
    · simp only [ofBytes?, dif_neg hlength] at h
      cases h

/-- A text that is refused is an invalid key. -/
theorem decode_cases (text : String) :
    (∃ key, decode text = .ok key) ∨ ∃ reason, decode text = .error (.invalidKey reason) := by
  rw [decode]
  split
  · exact .inr ⟨_, rfl⟩
  · split
    · exact .inl ⟨_, rfl⟩
    · exact .inr ⟨_, rfl⟩

/-- **A text is read as a key just where it is the written form of the key with
blanks around it.** Every other text is an invalid key. The written form of a key is
read back, and it is the one encoding that RFC 4648 gives its bytes. -/
theorem read_iff_written (text : String) :
    (∀ key : RoomKey, decode text = .ok key ↔ Text.trim text = key.encode) ∧
    (∀ key : RoomKey, Text.trim text = key.encode ↔
      ∃ before after, (∀ c ∈ before ++ after, Text.isBlank c = true) ∧
        text.toList = before ++ key.encode.toList ++ after) ∧
    ((∃ reason, decode text = .error (.invalidKey reason)) ↔
      ∀ key : RoomKey, Text.trim text ≠ key.encode) ∧
    ∀ key : RoomKey, decode key.encode = .ok key ∧
      ∀ form, Base64.Written key.bytes form ↔ form = Text.Utf8.encode key.encode := by
  refine ⟨decode_eq_ok_iff text, trim_eq_encode_iff text, ⟨?_, fun h => ?_⟩,
    fun key => ⟨decode_encode key, fun form => ?_⟩⟩
  · rintro ⟨reason, herror⟩ key htrim
    rw [decode_of_trim htrim] at herror
    cases herror
  · refine (decode_cases text).resolve_left ?_
    rintro ⟨key, hkey⟩
    exact h key ((decode_eq_ok_iff text key).1 hkey)
  · rw [utf8_encode]
    exact Base64.written_iff key.bytes form

end Colloquy.RoomKey
