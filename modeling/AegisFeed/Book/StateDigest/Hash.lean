import AegisFeed.Book.StateDigest.Counters
import AegisFeed.Library.Folding

namespace AegisFeed

section Step

-- The prime is odd, so it has an inverse modulo 2^64.
theorem mul_prime_injective : (· * kFnv1aPrime).Injective := by
  have hinverse : kFnv1aPrime * 14886173955864302971 = 1 := by decide
  intro hash other heq
  have hback := congrArg (· * 14886173955864302971) heq
  simpa only [UInt64.mul_assoc, hinverse, UInt64.mul_one] using hback

theorem fnv1a64_step_injective (byte : UInt8) :
    (fun hash : UInt64 => (hash ^^^ byte.toUInt64) * kFnv1aPrime).Injective := by
  intro hash other heq
  have hxor := mul_prime_injective heq
  rwa [← UInt64.toBitVec_inj, UInt64.toBitVec_xor, UInt64.toBitVec_xor, BitVec.xor_left_inj,
    UInt64.toBitVec_inj] at hxor

theorem fnv1a64_byte_injective (hash : UInt64) :
    (fun byte : UInt8 => (hash ^^^ byte.toUInt64) * kFnv1aPrime).Injective := by
  intro byte other heq
  have hxor := mul_prime_injective heq
  rwa [← UInt64.toBitVec_inj, UInt64.toBitVec_xor, UInt64.toBitVec_xor, BitVec.xor_right_inj,
    UInt64.toBitVec_inj, UInt8.toUInt64_inj] at hxor

end Step

theorem fnv1a64_append_iff (first second suffix : List UInt8) :
    fnv1a64 (first ++ suffix) = fnv1a64 (second ++ suffix) ↔ fnv1a64 first = fnv1a64 second :=
  Folding.foldl_append_iff fnv1a64_step_injective first second suffix kFnv1aOffsetBasis

theorem fnv1a64_ne_of_one {first second : List UInt8} (hlength : first.length = second.length)
    (hone : ∃! index : Nat, first[index]? ≠ second[index]?) : fnv1a64 first ≠ fnv1a64 second :=
  Folding.foldl_ne_of_one fnv1a64_step_injective fnv1a64_byte_injective hlength hone
    kFnv1aOffsetBasis

-- The hash of a digest is the hash of the canonical bytes.
theorem compute_state_digest_hash {store : BookStore} {order : BookStore.HashOrder store}
    {last_mold_sequence : UInt64} {bytes : List UInt8} {digest : StateDigest}
    (hbytes : canonical_state_bytes store order last_mold_sequence = .ok bytes)
    (hdigest : compute_state_digest store order last_mold_sequence = .ok digest) :
    digest.hash = fnv1a64 bytes := by
  unfold canonical_state_bytes at hbytes
  unfold compute_state_digest at hdigest
  cases hsnapshot : store.canonical_snapshot order with
  | error error =>
    rw [hsnapshot] at hbytes
    cases hbytes
  | ok snapshot =>
    rw [hsnapshot] at hbytes hdigest
    dsimp only at hbytes hdigest
    rw [hbytes] at hdigest
    exact ((summarize_ok_iff _ _ _).mp hdigest).hash

-- The hash keeps apart what a common suffix follows, and what one byte tells apart.
theorem fnv1a64_never_merges :
    (∀ first second suffix : List UInt8,
      fnv1a64 (first ++ suffix) = fnv1a64 (second ++ suffix) ↔
        fnv1a64 first = fnv1a64 second) ∧
    (∀ first second : List UInt8, first.length = second.length →
      (∃! index : Nat, first[index]? ≠ second[index]?) → fnv1a64 first ≠ fnv1a64 second) ∧
    ∀ (store other : BookStore) (order : BookStore.HashOrder store)
      (order' : BookStore.HashOrder other) (sequence sequence' : UInt64)
      (bytes bytes' : List UInt8) (digest digest' : StateDigest),
      canonical_state_bytes store order sequence = .ok bytes →
      canonical_state_bytes other order' sequence' = .ok bytes' →
      bytes.length = bytes'.length → (∃! index : Nat, bytes[index]? ≠ bytes'[index]?) →
      compute_state_digest store order sequence = .ok digest →
      compute_state_digest other order' sequence' = .ok digest' → digest.hash ≠ digest'.hash := by
  refine ⟨fnv1a64_append_iff, fun _ _ => fnv1a64_ne_of_one, ?_⟩
  intro store other order order' sequence sequence' bytes bytes' digest digest' hbytes hbytes'
    hlength hone hdigest hdigest'
  rw [compute_state_digest_hash hbytes hdigest, compute_state_digest_hash hbytes' hdigest']
  exact fnv1a64_ne_of_one hlength hone

end AegisFeed
