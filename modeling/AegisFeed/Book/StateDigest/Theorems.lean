import AegisFeed.Book.StateDigest.Decoding

namespace AegisFeed

-- The encoding is uniquely decodable: it determines the snapshot and the sequence,
-- and no encoding is a proper prefix of another.
theorem encode_snapshot_decodable {first second : CanonicalBookStore} {sequence sequence' : UInt64}
    {bytes bytes' : List UInt8} (hfirst : first.Sized) (hsecond : second.Sized)
    (h : encode_snapshot first sequence = .ok bytes)
    (h' : encode_snapshot second sequence' = .ok bytes') :
    (bytes = bytes' → first = second ∧ sequence = sequence') ∧
    (bytes <+: bytes' → bytes = bytes') ∧ (bytes' <+: bytes → bytes' = bytes) ∧
    decode_snapshot bytes = some ((first, sequence), []) ∧
    decode_snapshot bytes' = some ((second, sequence'), []) := by
  have hread := reads_snapshot hfirst h
  have hread' := reads_snapshot hsecond h'
  refine ⟨fun heq => ?_, hread.eq_of_isPrefix hread', hread'.eq_of_isPrefix hread,
    hread.complete, hread'.complete⟩
  subst heq
  have hsame := hread.complete.symm.trans hread'.complete
  simpa using hsame

-- One book with a level on each side, and the same book with its ask attributed.
def sampleSnapshot (has_attribution : Bool) : CanonicalBookStore :=
  { books := [{
      symbol := ['A'.toUInt8, 'B'.toUInt8]
      book := {
        stock_locate := 7
        bids := [{ price := 100, aggregate_shares := 30, order_count := 1 }]
        asks := [{ price := 101, aggregate_shares := 40, order_count := 1 }]
        orders := [
          { id := 1, stock_locate := 7, side := Side.Buy, price := 100, remaining := 30,
            attribution := Attribution.zero, has_attribution := false },
          { id := 2, stock_locate := 7, side := Side.Sell, price := 101, remaining := 40,
            attribution := Attribution.zero, has_attribution }] } }] }

def sampleBytes (has_attribution : Bool) : List UInt8 :=
  match encode_snapshot (sampleSnapshot has_attribution) 9 with
  | .ok bytes => bytes
  | .error _ => []

theorem sampleSnapshot_sized (has_attribution : Bool) :
    (sampleSnapshot has_attribution).Sized := by
  refine ⟨show 1 < 2 ^ 64 by decide, fun canonical_book hmem => ?_⟩
  cases List.mem_singleton.mp hmem
  exact ⟨show 2 < 2 ^ 64 by decide, show 1 < 2 ^ 64 by decide, show 1 < 2 ^ 64 by decide,
    show 2 < 2 ^ 64 by decide⟩

theorem sampleSnapshot_decodable :
    (sampleBytes false = sampleBytes true →
      sampleSnapshot false = sampleSnapshot true ∧ (9 : UInt64) = 9) ∧
    (sampleBytes false <+: sampleBytes true → sampleBytes false = sampleBytes true) ∧
    (sampleBytes true <+: sampleBytes false → sampleBytes true = sampleBytes false) ∧
    decode_snapshot (sampleBytes false) = some ((sampleSnapshot false, 9), []) ∧
    decode_snapshot (sampleBytes true) = some ((sampleSnapshot true, 9), []) :=
  encode_snapshot_decodable (sampleSnapshot_sized false) (sampleSnapshot_sized true) rfl rfl

end AegisFeed
