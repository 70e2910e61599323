import Colloquy.Cipher.Gcm
/-!
# Opening what was sealed

The key stream is combined with a text byte by byte, and combining twice gives
the text back as long as the stream reaches to its end. It does: every round
of the block cipher keeps sixteen bytes, so a counter block makes a whole
block of the stream (`length_encryptBlock`). `decrypt?_encrypt` follows, for
every plaintext under a key of 32 bytes and a nonce of twelve. What opens was
sealed (`eq_encrypt_of_decrypt?`): the plaintext found is the one whose stream
is the ciphertext, and the tag is compared over that ciphertext.
-/

namespace Colloquy

namespace Aes

/-! ## Lengths -/

theorem length_xor (a b : List UInt8) : (xor a b).length = min a.length b.length :=
  List.length_zipWith

/-- **Combining twice is the identity**, where the mask reaches. -/
theorem xor_xor (a mask : List UInt8) (h : a.length ≤ mask.length) :
    xor (xor a mask) mask = a := by
  induction a generalizing mask with
  | nil => rfl
  | cons x a ih =>
    cases mask with
    | nil => simp at h
    | cons y mask =>
      have hbyte : x ^^^ y ^^^ y = x := by rw [UInt8.xor_assoc, UInt8.xor_self, UInt8.xor_zero]
      have htail := ih mask (by simpa using h)
      simp only [xor, List.zipWith_cons_cons, hbyte] at htail ⊢
      rw [htail]

/-- A mask is applied part by part. -/
theorem xor_append (a mask rest : List UInt8) :
    xor a (mask ++ rest) = xor (a.take mask.length) mask ++ xor (a.drop mask.length) rest := by
  induction mask generalizing a with
  | nil => simp [xor]
  | cons y mask ih =>
    cases a with
    | nil => simp [xor]
    | cons x a =>
      have htail := ih a
      simp only [xor] at htail
      simp only [xor, List.cons_append, List.zipWith_cons_cons, List.length_cons,
        List.take_succ_cons, List.drop_succ_cons, htail]

theorem length_shiftRows (s : List UInt8) : (shiftRows s).length = s.length := by
  unfold shiftRows
  split <;> rfl

theorem length_mixColumns (s : List UInt8) : (mixColumns s).length = s.length := by
  fun_induction mixColumns s with
  | case1 a b c d rest ih =>
    rw [List.length_append, ih]
    simp only [mixColumn, List.length_cons, List.length_nil]
    omega
  | case2 s => rfl

/-- The words of a key are of four bytes each. -/
theorem length_of_mem_quads {s word : List UInt8} (h : word ∈ quads s) : word.length = 4 := by
  fun_induction quads s with
  | case1 a b c d rest ih =>
    rcases List.mem_cons.1 h with rfl | h
    · rfl
    · exact ih h
  | case2 s => cases h

theorem length_quads (s : List UInt8) : (quads s).length = s.length / 4 := by
  fun_induction quads s with
  | case1 a b c d rest ih =>
    simp only [List.length_cons, ih]
    omega
  | case2 s hshort =>
    have hlength : s.length < 4 := by
      match s, hshort with
      | [], _ | [_], _ | [_, _], _ | [_, _, _], _ => simp
      | a :: b :: c :: d :: rest, hshort => exact absurd rfl (hshort a b c d rest)
    rw [List.length_nil, Nat.div_eq_of_lt hlength]

/-- **A key schedule goes on in words of four bytes**, from eight of them. -/
theorem length_of_mem_expand (n : Nat) :
    ∀ (latest : List (List UInt8)) (i : Nat) (constant : UInt8), 8 ≤ latest.length →
      (∀ word ∈ latest, word.length = 4) →
      ∀ word ∈ expand latest i constant n, word.length = 4 := by
  induction n with
  | zero => intro latest i constant _ hwords; exact hwords
  | succ n ih =>
    intro latest i constant hlength hwords
    have hold : (latest.getD 7 []).length = 4 := by
      rw [List.getD_eq_getElem?_getD, List.getElem?_eq_getElem (by omega)]
      exact hwords _ (List.getElem_mem _)
    obtain ⟨previous, hprevious, hfour⟩ :
        ∃ previous, latest.headD [] = previous ∧ previous.length = 4 := by
      cases latest with
      | nil => simp at hlength
      | cons word latest => exact ⟨word, rfl, hwords word (.head _)⟩
    -- every new word is combined from two of four bytes
    have hnext : ∀ word, word.length = 4 → ∀ other, other.length = 4 →
        ∀ w ∈ xor other word :: latest, w.length = 4 := by
      intro word hword other hother w hw
      rcases List.mem_cons.1 hw with rfl | hw
      · rw [length_xor, hother, hword, Nat.min_self]
      · exact hwords w hw
    have hmore : ∀ word : List UInt8, 8 ≤ (word :: latest).length := by
      intro word
      rw [List.length_cons]
      omega
    simp only [expand, hprevious]
    split
    · refine ih _ _ _ (hmore _) (fun w hw => ?_)
      rcases List.mem_cons.1 hw with rfl | hw
      · cases previous with
        | nil => cases hfour
        | cons a rest =>
          simp only [List.length_cons] at hfour
          simp only [length_xor, List.length_map, List.length_append, List.length_cons,
            List.length_nil, hold]
          omega
      · exact hwords w hw
    · split
      · exact ih _ _ _ (hmore _) (hnext _ (by rw [List.length_map, hfour]) _ hold)
      · exact ih _ _ _ (hmore _) (hnext _ hfour _ hold)

theorem length_of_mem_joinKeys {words : List (List UInt8)}
    (hwords : ∀ word ∈ words, word.length = 4) {key : List UInt8} (h : key ∈ joinKeys words) :
    key.length = 16 := by
  fun_induction joinKeys words with
  | case1 a b c d rest ih =>
    have ha := hwords a (by simp)
    have hb := hwords b (by simp)
    have hc := hwords c (by simp)
    have hd := hwords d (by simp)
    rcases List.mem_cons.1 h with rfl | h
    · simp only [List.length_append]
      omega
    · exact ih (fun word hw => hwords word (by simp [hw])) h
  | case2 words => cases h

/-- The round keys are blocks. -/
theorem length_of_mem_roundKeys {key : List UInt8} (hkey : key.length = 32) :
    ∀ k ∈ roundKeys key, k.length = 16 := by
  intro k hk
  refine length_of_mem_joinKeys (fun word hword => ?_) hk
  refine length_of_mem_expand 52 (quads key).reverse 8 1 ?_ ?_ word (List.mem_reverse.1 hword)
  · have height := length_quads key
    rw [List.length_reverse]
    omega
  · intro w hw
    exact length_of_mem_quads (List.mem_reverse.1 hw)

theorem length_rounds {keys : List (List UInt8)} (hkeys : ∀ k ∈ keys, k.length = 16) :
    ∀ state : List UInt8, state.length = 16 → (rounds state keys).length = 16 := by
  intro state hstate
  fun_induction rounds state keys with
  | case1 state => exact hstate
  | case2 state last =>
    rw [length_xor, length_shiftRows, List.length_map, hstate, hkeys last (by simp), Nat.min_self]
  | case3 state k rest _ ih =>
    refine ih (fun k' hk' => hkeys k' (.tail _ hk')) ?_
    rw [length_xor, length_mixColumns, length_shiftRows, List.length_map, hstate,
      hkeys k (.head _), Nat.min_self]

/-- **A block is made into a block.** -/
theorem length_encryptBlock {keys : List (List UInt8)} (hkeys : ∀ k ∈ keys, k.length = 16)
    {block : List UInt8} (hblock : block.length = 16) : (encryptBlock keys block).length = 16 := by
  cases keys with
  | nil => exact hblock
  | cons k rest =>
    refine length_rounds (fun k' hk' => hkeys k' (.tail _ hk')) _ ?_
    rw [length_xor, hblock, hkeys k (.head _), Nat.min_self]

end Aes

theorem Octets.length_ofNumber (count n : Nat) : (ofNumber count n).length = count := by
  simp [ofNumber]

namespace Gcm

variable {keys : List (List UInt8)} {nonce : List UInt8}

theorem length_counterBlock (hnonce : nonce.length = 12) (count : Nat) :
    (counterBlock nonce count).length = 16 := by
  rw [counterBlock, List.length_append, hnonce, Octets.length_ofNumber]

/-- The mask of a block of the stream. -/
theorem length_mask (hkeys : ∀ k ∈ keys, k.length = 16) (hnonce : nonce.length = 12)
    (count : Nat) : (Aes.encryptBlock keys (counterBlock nonce count)).length = 16 :=
  Aes.length_encryptBlock hkeys (length_counterBlock hnonce count)

/-- The key stream of `n` counts from one on. -/
def keyStream (keys : List (List UInt8)) (nonce : List UInt8) (count n : Nat) : List UInt8 :=
  (List.range' count n).flatMap fun i => Aes.encryptBlock keys (counterBlock nonce i)

theorem length_keyStream (hkeys : ∀ k ∈ keys, k.length = 16) (hnonce : nonce.length = 12)
    (count n : Nat) : (keyStream keys nonce count n).length = 16 * n := by
  induction n generalizing count with
  | zero => rfl
  | succ n ih =>
    have hrest := ih (count + 1)
    simp only [keyStream] at hrest
    simp only [keyStream, List.range'_succ, List.flatMap_cons, List.length_append, hrest,
      length_mask hkeys hnonce]
    omega

/-- **A text is combined with one key stream**, block by block: what stands behind
its first sixteen bytes is combined with what stands behind the first block of
the stream. -/
theorem stream_eq_xor (hkeys : ∀ k ∈ keys, k.length = 16) (hnonce : nonce.length = 12)
    (count : Nat) (text : List UInt8) (n : Nat) :
    stream keys nonce count text n = Aes.xor text (keyStream keys nonce count n) := by
  induction n generalizing count text with
  | zero => exact List.zipWith_nil_right.symm
  | succ n ih =>
    have hsplit := Aes.xor_append text (Aes.encryptBlock keys (counterBlock nonce count))
      (keyStream keys nonce (count + 1) n)
    rw [length_mask hkeys hnonce] at hsplit
    rw [stream, ih, ← hsplit, keyStream, keyStream, List.range'_succ, List.flatMap_cons]

theorem le_blockCount (text : List UInt8) : text.length ≤ 16 * blockCount text := by
  simp only [blockCount]
  omega

theorem crypt_eq_xor (hkeys : ∀ k ∈ keys, k.length = 16) (hnonce : nonce.length = 12)
    (text : List UInt8) :
    crypt keys nonce text = Aes.xor text (keyStream keys nonce 2 (blockCount text)) :=
  stream_eq_xor hkeys hnonce _ _ _

/-- The stream reaches to the end of the text. -/
theorem length_crypt (hkeys : ∀ k ∈ keys, k.length = 16) (hnonce : nonce.length = 12)
    (text : List UInt8) : (crypt keys nonce text).length = text.length := by
  have hreach := le_blockCount text
  rw [crypt_eq_xor hkeys hnonce, Aes.length_xor, length_keyStream hkeys hnonce]
  omega

/-- A text encrypted twice is the text. -/
theorem crypt_crypt (hkeys : ∀ k ∈ keys, k.length = 16) (hnonce : nonce.length = 12)
    (text : List UInt8) : crypt keys nonce (crypt keys nonce text) = text := by
  have hcount : blockCount (crypt keys nonce text) = blockCount text := by
    rw [blockCount, length_crypt hkeys hnonce, blockCount]
  have hreach : text.length ≤ (keyStream keys nonce 2 (blockCount text)).length := by
    rw [length_keyStream hkeys hnonce]
    exact le_blockCount text
  rw [crypt_eq_xor hkeys hnonce (crypt keys nonce text), hcount, crypt_eq_xor hkeys hnonce text,
    Aes.xor_xor _ _ hreach]

theorem length_tag (hkeys : ∀ k ∈ keys, k.length = 16) (hnonce : nonce.length = 12)
    (ciphertext : List UInt8) : (tag keys nonce ciphertext).length = 16 := by
  rw [tag, Aes.length_xor, length_mask hkeys hnonce, Octets.length_ofNumber, Nat.min_self]

/-- **What was sealed opens**, to the plaintext it was. -/
theorem decrypt?_encrypt {key : List UInt8} (hkey : key.length = 32) (hnonce : nonce.length = 12)
    (plaintext : List UInt8) :
    decrypt? key nonce (encrypt key nonce plaintext) = some plaintext := by
  have hkeys := Aes.length_of_mem_roundKeys hkey
  have htag := length_tag hkeys hnonce (crypt (Aes.roundKeys key) nonce plaintext)
  have hlength : (encrypt key nonce plaintext).length =
      (crypt (Aes.roundKeys key) nonce plaintext).length + 16 := by
    simp only [encrypt, List.length_append, htag]
  have hlong : ¬ (encrypt key nonce plaintext).length < 16 := by omega
  have htake : (encrypt key nonce plaintext).take ((encrypt key nonce plaintext).length - 16) =
      crypt (Aes.roundKeys key) nonce plaintext := by
    rw [hlength, Nat.add_sub_cancel]
    exact List.take_left
  have hdrop : (encrypt key nonce plaintext).drop ((encrypt key nonce plaintext).length - 16) =
      tag (Aes.roundKeys key) nonce (crypt (Aes.roundKeys key) nonce plaintext) := by
    rw [hlength, Nat.add_sub_cancel]
    exact List.drop_left
  rw [decrypt?, if_neg hlong]
  simp only [htake, hdrop, if_true, crypt_crypt hkeys hnonce]

/-- **What opens was sealed**, as the plaintext that it opens to. -/
theorem eq_encrypt_of_decrypt? {key : List UInt8} (hkey : key.length = 32)
    (hnonce : nonce.length = 12) {sealed plaintext : List UInt8}
    (h : decrypt? key nonce sealed = some plaintext) : sealed = encrypt key nonce plaintext := by
  have hkeys := Aes.length_of_mem_roundKeys hkey
  unfold decrypt? at h
  split at h
  · cases h
  · simp only at h
    split at h
    · rename_i htag
      obtain rfl := Option.some.inj h
      simp only [encrypt, crypt_crypt hkeys hnonce, htag, List.take_append_drop]
    · cases h

end Gcm

end Colloquy
