import Colloquy.Proofs.Cipher.Base64
import Colloquy.Proofs.Cipher.Gcm
import Colloquy.Proofs.Text.Blank
import Colloquy.Proofs.Text.Utf8
import Colloquy.Room
/-!
# Keys and records are read back

The stored text of a key is the written form of no other key, and a record
that was sealed under a nonce of twelve bytes opens under its key.
-/

namespace Colloquy

/-! ## The stored text of a key -/

namespace Base64

variable {b : UInt8}

/-- A printable byte as a character. -/
theorem Printable.toNat_char (hb : Printable b) : (Char.ofNat b.toNat).toNat = b.toNat :=
  Text.Utf8.toNat_char (.inl (by have := hb.2; omega))

theorem Printable.not_blank (hb : Printable b) : Text.isBlank (Char.ofNat b.toNat) = false := by
  obtain ⟨hlow, hhigh⟩ := hb
  rw [Text.isBlank, Printable.toNat_char ⟨hlow, hhigh⟩]
  simp only [Bool.or_eq_false_iff, Bool.and_eq_false_iff, decide_eq_false_iff_not]
  omega

theorem Printable.encodeChar (hb : Printable b) :
    Text.Utf8.encodeChar (Char.ofNat b.toNat) = [b] := by
  have hascii : b.toNat < 0x80 := by have := hb.2; omega
  simp only [Text.Utf8.encodeChar, hb.toNat_char, if_pos hascii, UInt8.ofNat_toNat]

/-- A text of printable bytes is those bytes. -/
theorem encodeChars_map (bytes : List UInt8) (hbytes : ∀ b ∈ bytes, Printable b) :
    Text.Utf8.encodeChars (bytes.map fun b => Char.ofNat b.toNat) = bytes := by
  induction bytes with
  | nil => rfl
  | cons b bytes ih =>
    have hrest := ih fun b' hb' => hbytes b' (.tail _ hb')
    simp only [Text.Utf8.encodeChars] at hrest
    rw [List.map_cons, Text.Utf8.encodeChars, List.flatMap_cons, (hbytes b (.head _)).encodeChar,
      hrest]
    rfl

end Base64

namespace RoomKey

theorem utf8_encode (key : RoomKey) :
    Text.Utf8.encode key.encode = Base64.encodeBytes key.bytes := by
  rw [Text.Utf8.encode, RoomKey.encode, Base64.encode, String.toList_ofList]
  exact Base64.encodeChars_map _ fun b hb => Base64.printable_of_mem_encodeBytes hb

theorem encode_not_blank (key : RoomKey) : ∀ c ∈ key.encode.toList, Text.isBlank c = false := by
  intro c hc
  rw [RoomKey.encode, Base64.encode, String.toList_ofList] at hc
  obtain ⟨b, hb, rfl⟩ := List.mem_map.1 hc
  exact (Base64.printable_of_mem_encodeBytes hb).not_blank

/-- Blanks alone are trimmed off a stored key. -/
theorem trim_eq_encode_iff (text : String) (key : RoomKey) :
    Text.trim text = key.encode ↔
      ∃ before after, (∀ c ∈ before ++ after, Text.isBlank c = true) ∧
        text.toList = before ++ key.encode.toList ++ after := by
  rw [← Text.trim_eq_iff key.encode_not_blank, String.ofList_toList]

theorem decode_of_trim {text : String} {key : RoomKey} (h : Text.trim text = key.encode) :
    decode text = .ok key := by
  simp only [decode, h, utf8_encode, Base64.decode_encodeBytes, ofBytes?, dif_pos key.length_bytes]

/-- **A stored key is the key that was stored.** -/
theorem decode_encode (key : RoomKey) : decode key.encode = .ok key := by
  refine decode_of_trim ((trim_eq_encode_iff _ key).2 ⟨[], [], ?_, ?_⟩)
  · exact fun c hc => (List.not_mem_nil hc).elim
  · rw [List.nil_append, List.append_nil]

end RoomKey

/-! ## Sealed records -/

/-- **A sealed record opens** under the key it was sealed with. -/
theorem RoomCipher.decrypt_encrypt (key : RoomKey) {nonce : List UInt8}
    (hnonce : nonce.length = RoomCipher.nonceLength) (plaintext : List UInt8) :
    RoomCipher.decrypt key (RoomCipher.encrypt key nonce plaintext) = .ok plaintext := by
  have hlong : ¬ (RoomCipher.encrypt key nonce plaintext).length < RoomCipher.nonceLength := by
    rw [RoomCipher.encrypt, List.length_append, hnonce]
    omega
  have htake : (RoomCipher.encrypt key nonce plaintext).take RoomCipher.nonceLength = nonce :=
    List.take_left' hnonce
  have hdrop : (RoomCipher.encrypt key nonce plaintext).drop RoomCipher.nonceLength =
      Gcm.encrypt key.bytes nonce plaintext :=
    List.drop_left' hnonce
  rw [RoomCipher.decrypt, if_neg hlong, htake, hdrop,
    Gcm.decrypt?_encrypt key.length_bytes hnonce]

end Colloquy
