import Gatehouse.Digest.Sha256

/-!
The keyed digest HMAC-SHA256: a secret is folded into the message twice, so the
result is known only to who knows the secret.
-/

namespace Gatehouse.Digest.Hmac

/-- The bytes of a secret in one block: a long secret is digested first. -/
def block (secret : Bytes) : Bytes :=
  let short := if secret.length ≤ 64 then secret else Sha256.digest secret
  short ++ List.replicate (64 - short.length) 0

/-- The keyed digest of a message. -/
def sign (secret message : Bytes) : Bytes :=
  let key := block secret
  Sha256.digest ((key.map (· ^^^ 0x5C)) ++ Sha256.digest ((key.map (· ^^^ 0x36)) ++ message))

end Gatehouse.Digest.Hmac
