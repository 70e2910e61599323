import Colloquy.Proofs.Room
/-!
# Which records open

A record opens to a plaintext when it is what sealing that plaintext makes under
the nonce that the record begins with (`decrypt_eq_ok_iff`). So sealing and
opening undo each other, and everything else is refused: a record without room
for a nonce as too short, and any other as one that does not belong to the key
(`decrypt_cases`).
-/

namespace Colloquy.RoomCipher

variable {key : RoomKey} {nonce record plaintext : List UInt8}

/-- The length of a tag. -/
def tagLength : Nat := 16

/-- **What a plaintext is sealed as** behind its nonce: the plaintext combined with the
key stream of the counts from two on, and the tag of that ciphertext. -/
structure Sealed (key : RoomKey) (nonce plaintext ciphertext tag : List UInt8) : Prop where
  length_ciphertext : ciphertext.length = plaintext.length
  length_tag : tag.length = tagLength
  ciphertext_eq : ciphertext = Aes.xor plaintext
    (Gcm.keyStream (Aes.roundKeys key.bytes) nonce 2 (Gcm.blockCount plaintext))
  tag_eq : tag = Gcm.tag (Aes.roundKeys key.bytes) nonce ciphertext

/-- **A sealed record is nonce, ciphertext and tag.** -/
theorem encrypt_eq (key : RoomKey) (hnonce : nonce.length = nonceLength) (plaintext : List UInt8) :
    ∃ ciphertext tag, encrypt key nonce plaintext = nonce ++ (ciphertext ++ tag) ∧
      Sealed key nonce plaintext ciphertext tag := by
  have hkeys := Aes.length_of_mem_roundKeys key.length_bytes
  exact ⟨Gcm.crypt (Aes.roundKeys key.bytes) nonce plaintext, _, rfl,
    Gcm.length_crypt hkeys hnonce plaintext, Gcm.length_tag hkeys hnonce _,
    Gcm.crypt_eq_xor hkeys hnonce plaintext, rfl⟩

theorem length_encrypt (key : RoomKey) (hnonce : nonce.length = nonceLength)
    (plaintext : List UInt8) :
    (encrypt key nonce plaintext).length = nonceLength + plaintext.length + tagLength := by
  obtain ⟨ciphertext, tag, hrecord, hsealed⟩ := encrypt_eq key hnonce plaintext
  rw [hrecord, List.length_append, List.length_append, hnonce, hsealed.length_ciphertext,
    hsealed.length_tag]
  omega

theorem length_take_nonce (h : nonceLength ≤ record.length) :
    (record.take nonceLength).length = nonceLength := by
  rw [List.length_take]
  omega

/-- **What opens was sealed** under the nonce that it begins with. -/
theorem eq_encrypt_of_decrypt (h : decrypt key record = .ok plaintext) :
    nonceLength ≤ record.length ∧ record = encrypt key (record.take nonceLength) plaintext := by
  unfold decrypt at h
  split at h
  · cases h
  · rename_i hshort
    have hlong : nonceLength ≤ record.length := by omega
    refine ⟨hlong, ?_⟩
    cases hopen : Gcm.decrypt? key.bytes (record.take nonceLength) (record.drop nonceLength) with
    | none => simp only [hopen] at h; cases h
    | some found =>
      simp only [hopen] at h
      obtain rfl := Except.ok.inj h
      have hsealed := Gcm.eq_encrypt_of_decrypt? key.length_bytes (length_take_nonce hlong) hopen
      rw [encrypt, ← hsealed, List.take_append_drop]

theorem decrypt_eq_ok_iff : decrypt key record = .ok plaintext ↔
    nonceLength ≤ record.length ∧ record = encrypt key (record.take nonceLength) plaintext := by
  constructor
  · exact eq_encrypt_of_decrypt
  · rintro ⟨hlong, hsealed⟩
    have hopen := decrypt_encrypt key (length_take_nonce hlong) plaintext
    rwa [← hsealed] at hopen

/-- **Every record takes one of three ways**: it has no room for a nonce, it was
sealed, or it was not. -/
theorem decrypt_cases (key : RoomKey) (record : List UInt8) :
    record.length < nonceLength ∧ decrypt key record = .error .ciphertextTooShort ∨
      nonceLength ≤ record.length ∧
        ((∃ plaintext, record = encrypt key (record.take nonceLength) plaintext ∧
            decrypt key record = .ok plaintext) ∨
          (∀ plaintext, record ≠ encrypt key (record.take nonceLength) plaintext) ∧
            decrypt key record = .error .decryptionFailed) := by
  rcases Nat.lt_or_ge record.length nonceLength with hless | hle
  · exact .inl ⟨hless, if_pos hless⟩
  · refine .inr ⟨hle, ?_⟩
    cases hopen : decrypt key record with
    | ok plaintext => exact .inl ⟨plaintext, (eq_encrypt_of_decrypt hopen).2, rfl⟩
    | error e =>
      refine .inr ⟨fun plaintext hsealed => ?_, ?_⟩
      · rw [decrypt_eq_ok_iff.2 ⟨hle, hsealed⟩] at hopen
        cases hopen
      · unfold decrypt at hopen
        rw [if_neg (Nat.not_lt.2 hle)] at hopen
        split at hopen
        · cases hopen
        · exact hopen.symm

/-- **A record opens to what was sealed in it, and nothing else opens.** For every
key and record: the record opens to a plaintext just when sealing that under the
nonce it begins with makes the record. What is sealed is nonce, ciphertext and tag,
and opens. A record without room for a nonce is too short; every other that was not
sealed does not belong to the key, and so none does that has no room for a tag. -/
theorem opens_iff_sealed (key : RoomKey) (record : List UInt8) :
    (∀ plaintext, decrypt key record = .ok plaintext ↔
        nonceLength ≤ record.length ∧ record = encrypt key (record.take nonceLength) plaintext) ∧
      (∀ nonce plaintext, nonce.length = nonceLength →
        decrypt key (encrypt key nonce plaintext) = .ok plaintext ∧
          ∃ ciphertext tag, encrypt key nonce plaintext = nonce ++ (ciphertext ++ tag) ∧
            Sealed key nonce plaintext ciphertext tag) ∧
      (decrypt key record = .error .ciphertextTooShort ↔ record.length < nonceLength) ∧
      (decrypt key record = .error .decryptionFailed ↔ nonceLength ≤ record.length ∧
        ∀ plaintext, record ≠ encrypt key (record.take nonceLength) plaintext) ∧
      (nonceLength ≤ record.length → record.length < nonceLength + tagLength →
        decrypt key record = .error .decryptionFailed) := by
  refine ⟨fun plaintext => decrypt_eq_ok_iff, fun nonce plaintext hnonce =>
    ⟨decrypt_encrypt key hnonce plaintext, encrypt_eq key hnonce plaintext⟩, ?_, ?_, ?_⟩
  · rcases decrypt_cases key record with ⟨hless, h⟩ | ⟨hle, ⟨plaintext, -, h⟩ | ⟨-, h⟩⟩
    · exact iff_of_true h hless
    · exact iff_of_false (by simp [h]) (Nat.not_lt.2 hle)
    · exact iff_of_false (by simp [h]) (Nat.not_lt.2 hle)
  · rcases decrypt_cases key record with ⟨hless, h⟩ | ⟨hle, ⟨plaintext, hsealed, h⟩ | ⟨hnot, h⟩⟩
    · exact iff_of_false (by simp [h]) fun hand => Nat.not_le.2 hless hand.1
    · exact iff_of_false (by simp [h]) fun hand => hand.2 plaintext hsealed
    · exact iff_of_true h ⟨hle, hnot⟩
  · intro hle hless
    rcases decrypt_cases key record with ⟨hnone, -⟩ | ⟨-, ⟨plaintext, hsealed, -⟩ | ⟨-, h⟩⟩
    · omega
    · have hlength := length_encrypt key (length_take_nonce hle) plaintext
      rw [← hsealed] at hlength
      omega
    · exact h

/-- Two bytes that open again, a record without room for a tag, and one without
room for a nonce. -/
theorem opens_iff_sealed_short :
    decrypt (.uniform 7) (encrypt (.uniform 7) (List.replicate 12 9) [104, 105]) =
        .ok [104, 105] ∧
      decrypt (.uniform 7) (List.replicate 27 0) = .error .decryptionFailed ∧
      decrypt (.uniform 7) (List.replicate 11 0) = .error .ciphertextTooShort := by
  obtain ⟨-, hround, -, -, hless⟩ := opens_iff_sealed (.uniform 7) (List.replicate 27 0)
  obtain ⟨-, -, hshort, -⟩ := opens_iff_sealed (.uniform 7) (List.replicate 11 0)
  have hopens := hround (List.replicate 12 9) [104, 105] (by decide)
  exact ⟨hopens.1, hless (by decide) (by decide), hshort.2 (by decide)⟩

end Colloquy.RoomCipher
