import QueryKit.Cache.Key
import QueryKit.Proofs.Text.Utf8

/-!
# What the bytes of a key tell apart

- `littleEndian_inj`: a number that fits is told by its bytes.
- `keyPart_cancel`: a text after its length ends where the length says, whatever stands behind it.
- `keyBytes_inj`: so the bytes of a list of texts tell how many there are and which.
- `Sha256.NoCollision`: two messages are the same if their hashes are.
- `cacheKey_inj`: without a collision a key tells the texts.
-/

namespace QueryKit

variable {s t : String} {ps qs : List String}

/-! ## Numbers -/

theorem length_littleEndian : ∀ count n : Nat, (littleEndian count n).length = count
  | 0, _ => rfl
  | count + 1, n => congrArg Nat.succ (length_littleEndian count (n / 256))

theorem length_littleEndian_eq (count m n : Nat) :
    (littleEndian count m).length = (littleEndian count n).length := by
  rw [length_littleEndian, length_littleEndian]

theorem littleEndian_inj : ∀ {count m n : Nat}, m < Nat.pow 256 count → n < Nat.pow 256 count →
    littleEndian count m = littleEndian count n → m = n
  | 0, m, n, hm, hn, _ => by
    exact (Nat.lt_one_iff.mp hm).trans (Nat.lt_one_iff.mp hn).symm
  | count + 1, m, n, hm, hn, h => by
    obtain ⟨hlow, hhigh⟩ := List.cons.inj h
    have hmod : m % 256 = n % 256 := by
      simpa using congrArg UInt8.toNat hlow
    have hpow : Nat.pow 256 (count + 1) = 256 * Nat.pow 256 count := Nat.pow_succ'
    rw [hpow] at hm hn
    have hdiv : m / 256 = n / 256 :=
      littleEndian_inj (Nat.div_lt_of_lt_mul hm) (Nat.div_lt_of_lt_mul hn) hhigh
    omega

/-! ## Texts -/

theorem length_toUTF8 (s : String) : s.toUTF8.toList.length = s.utf8ByteSize := by
  rw [ByteArray.toList, Text.toList_loop_eq]
  simp

theorem keyPart_inj (h : keyPart s = keyPart t) : s = t :=
  Text.toUTF8_inj (List.append_inj h (length_littleEndian_eq 8 _ _)).2

/-- A text after its length ends where the length says. -/
theorem keyPart_cancel {u v : List UInt8} (hs : s.utf8ByteSize < twoPow 64)
    (ht : t.utf8ByteSize < twoPow 64) (h : keyPart s ++ u = keyPart t ++ v) : s = t ∧ u = v := by
  rw [keyPart, keyPart, List.append_assoc, List.append_assoc] at h
  obtain ⟨hsizes, hrest⟩ := List.append_inj h (length_littleEndian_eq 8 _ _)
  have hpow : twoPow 64 = Nat.pow 256 8 := rfl
  have hsize : s.utf8ByteSize = t.utf8ByteSize :=
    littleEndian_inj (hpow ▸ hs) (hpow ▸ ht) hsizes
  obtain ⟨hbytes, huv⟩ := List.append_inj hrest (by rw [length_toUTF8, length_toUTF8, hsize])
  exact ⟨Text.toUTF8_inj hbytes, huv⟩

theorem keyPart_append_ne_nil (s : String) (u : List UInt8) : keyPart s ++ u ≠ [] := by
  intro h
  have hlength := congrArg List.length h
  simp [keyPart, length_littleEndian] at hlength

/-- The bytes of a list of texts tell the texts, and so how many they are. -/
theorem keyBytes_inj : ∀ {ps qs : List String}, (∀ s ∈ ps, s.utf8ByteSize < twoPow 64) →
    (∀ s ∈ qs, s.utf8ByteSize < twoPow 64) → keyBytes ps = keyBytes qs → ps = qs
  | [], [], _, _, _ => rfl
  | [], q :: qs, _, _, h => absurd h.symm (keyPart_append_ne_nil q (keyBytes qs))
  | p :: ps, [], _, _, h => absurd h (keyPart_append_ne_nil p (keyBytes ps))
  | p :: ps, q :: qs, hps, hqs, h => by
    obtain ⟨hp, hps'⟩ := List.forall_mem_cons.mp hps
    obtain ⟨hq, hqs'⟩ := List.forall_mem_cons.mp hqs
    have hparts : keyPart p ++ keyBytes ps = keyPart q ++ keyBytes qs := h
    obtain ⟨rfl, hrest⟩ := keyPart_cancel hp hq hparts
    rw [keyBytes_inj hps' hqs' hrest]

/-- The bytes of texts that differ in the last one at most say which one it is. -/
theorem keyBytes_last_inj {parts : List String} (h : keyBytes (parts ++ [s]) =
    keyBytes (parts ++ [t])) : s = t := by
  simp only [keyBytes, List.flatMap_append, List.flatMap_singleton] at h
  exact keyPart_inj (List.append_cancel_left h)

/-! ## Hashes -/

/-- The messages are the same if their hashes are. -/
def Sha256.NoCollision (m n : List UInt8) : Prop :=
  Sha256.hex m = Sha256.hex n → m = n

theorem keyBytes_of_cacheKey (h : cacheKey ps = cacheKey qs)
    (hno : Sha256.NoCollision (keyBytes ps) (keyBytes qs)) : keyBytes ps = keyBytes qs := by
  refine hno (String.toList_inj.mp ?_)
  have htext := congrArg String.toList h
  rw [cacheKey, cacheKey, String.toList_append, String.toList_append] at htext
  exact List.append_cancel_left htext

/-- Texts whose lengths fit eight bytes are told by the bytes that are hashed for their key, and by
the key itself if the hashes of the two messages do not collide. -/
theorem cacheKey_inj (hps : ∀ s ∈ ps, s.utf8ByteSize < twoPow 64)
    (hqs : ∀ s ∈ qs, s.utf8ByteSize < twoPow 64) :
    (keyBytes ps = keyBytes qs ↔ ps = qs) ∧
    (Sha256.NoCollision (keyBytes ps) (keyBytes qs) → (cacheKey ps = cacheKey qs ↔ ps = qs)) := by
  have hbytes : keyBytes ps = keyBytes qs ↔ ps = qs :=
    ⟨keyBytes_inj hps hqs, congrArg keyBytes⟩
  refine ⟨hbytes, fun hno => ⟨fun h => ?_, congrArg cacheKey⟩⟩
  exact hbytes.mp (keyBytes_of_cacheKey h hno)

/-- Texts that are cut apart in different places have different keys. -/
theorem cutApart_keys :
    (∀ s ∈ ["ab", "c"], s.utf8ByteSize < twoPow 64) ∧
      (∀ s ∈ ["a", "bc"], s.utf8ByteSize < twoPow 64) ∧
      Sha256.NoCollision (keyBytes ["ab", "c"]) (keyBytes ["a", "bc"]) ∧
      keyBytes ["ab", "c"] ≠ keyBytes ["a", "bc"] ∧
      cacheKey ["ab", "c"] ≠ cacheKey ["a", "bc"] := by
  have hps : ∀ s ∈ ["ab", "c"], s.utf8ByteSize < twoPow 64 := by decide
  have hqs : ∀ s ∈ ["a", "bc"], s.utf8ByteSize < twoPow 64 := by decide
  have hno : Sha256.NoCollision (keyBytes ["ab", "c"]) (keyBytes ["a", "bc"]) :=
    fun h => absurd h (by decide +kernel)
  have hne : ["ab", "c"] ≠ ["a", "bc"] := by decide
  obtain ⟨hbytes, hkeys⟩ := cacheKey_inj hps hqs
  exact ⟨hps, hqs, hno, fun h => hne (hbytes.mp h), fun h => hne ((hkeys hno).mp h)⟩

end QueryKit
