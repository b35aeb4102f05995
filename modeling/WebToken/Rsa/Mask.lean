import WebToken.Rsa.Key

/-!
The mask generation function of the RSA paddings: a digest stretched to any length by hashing it
with a counter.
-/

namespace WebToken.Rsa

/-- A mask of `length` bytes made from a seed: the digests of the seed followed by the counters 0,
1, 2 and so on, cut to length. No digest is shorter than twenty bytes, so `length` bytes never take
more counters than are tried. -/
def mask (digest : Bytes → Bytes) (length : Nat) (seed : Bytes) : Bytes :=
  ((List.range ((length + 19) / 20)).flatMap fun counter =>
    digest (seed ++ Bytes.ofNat 4 counter)).take length

end WebToken.Rsa
