import TetherDisplay.Foundations.AuthStream
import TetherDisplay.Foundations.LittleEndian
import TetherDisplay.Protocol.Message
import Mathlib.Data.Vector.Basic

/-!
# What is used of libsodium

The cryptographic library is not part of the repository.  `Sodium` is the part of its
interface that the pairing and the channel call, with the sizes of its arrays as
lengths: Ed25519 detached signatures, `crypto_kx` and the `secretstream` cipher.
Randomness is an argument (a secret key, a stream header), so that everything here is a
function.

What the documentation promises of these functions is stated as predicates on a
`Sodium`, each named where a result uses it: `SignCorrect`, `KxContract`,
`StreamContract`.  That signatures cannot be forged is no property of the functions and
is stated of runs, where signatures are made and checked.

`paper` is a small `Sodium` that keeps all the promises and no secrets.  It is there to
run the protocol on concrete inputs.  `ideal` differs from it in the cipher: its receiver
has a list of the records to come and accepts these, so that it is exact.
-/

namespace TetherDisplay.Crypto

/-- `std::array<std::uint8_t, n>`. -/
abbrev ByteArr (n : ℕ) := List.Vector UInt8 n

/-- Ed25519 identity public key, the device id that is pinned. -/
abbrev PublicKey := ByteArr 32

/-- `crypto_sign_BYTES`. -/
abbrev signBytes : ℕ := 64

/-- `crypto_secretstream_xchacha20poly1305_HEADERBYTES`. -/
abbrev headerBytes : ℕ := 24

/-- `crypto_secretstream_xchacha20poly1305_ABYTES`. -/
abbrev aBytes : ℕ := 17

/-- What `crypto_kx_*_session_keys` writes to `rx` and `tx`. -/
structure SessionKeys where
  rx : ByteArr 32
  tx : ByteArr 32
  deriving DecidableEq

/-- What is used of libsodium. -/
structure Sodium where
  /-- The public half of an Ed25519 secret key. -/
  signPublicKey : ByteArr 64 → PublicKey
  /-- `crypto_sign_detached`, of a message and a secret key. -/
  signDetached : Bytes → ByteArr 64 → ByteArr signBytes
  /-- `crypto_sign_verify_detached(sig, message, pk) == 0`. -/
  signVerifyDetached : ByteArr signBytes → Bytes → PublicKey → Bool
  /-- The public half of a `crypto_kx` secret key. -/
  kxPublicKey : ByteArr 32 → ByteArr 32
  /-- `crypto_kx_server_session_keys`, of the own pair and the client's public key. -/
  kxServerSessionKeys : ByteArr 32 → ByteArr 32 → ByteArr 32 → Option SessionKeys
  /-- `crypto_kx_client_session_keys`, of the own pair and the server's public key. -/
  kxClientSessionKeys : ByteArr 32 → ByteArr 32 → ByteArr 32 → Option SessionKeys
  /-- `crypto_secretstream_xchacha20poly1305_push` and `_pull`, without additional data. -/
  secretstream : AuthStream Bytes Bytes
  /-- `_init_push`, of the key and the header it draws. -/
  initPush : ByteArr 32 → ByteArr headerBytes → secretstream.Push
  /-- `_init_pull`, of the header and the key. -/
  initPull : ByteArr headerBytes → ByteArr 32 → Option secretstream.Pull

namespace Sodium

variable (S : Sodium)

/-- A signature verifies under the public half of the key that made it. -/
def SignCorrect : Prop :=
  ∀ message sk, S.signVerifyDetached (S.signDetached message sk) message
    (S.signPublicKey sk) = true

/-- Between two generated key pairs the server and the client agree on the two session
keys, what one sends with being what the other receives with. -/
def KxContract : Prop :=
  ∀ serverSk clientSk, ∃ k₁ k₂,
    S.kxServerSessionKeys (S.kxPublicKey serverSk) serverSk (S.kxPublicKey clientSk) =
        some ⟨k₁, k₂⟩ ∧
      S.kxClientSessionKeys (S.kxPublicKey clientSk) clientSk (S.kxPublicKey serverSk) =
        some ⟨k₂, k₁⟩

/-- The stream delivers in order what is pushed to a receiver with the same key and
header, and a record is `aBytes` longer than its message. -/
structure StreamContract : Prop where
  inSync : ∀ key header, ∃ pull, S.initPull header key = some pull ∧
    S.secretstream.InSync (S.initPush key header) pull
  length_push : ∀ s m, (S.secretstream.push s m).1.length = m.length + aBytes

end Sodium

/-! ## Two sodiums on paper -/

namespace Sodium

open LittleEndian

/-- The low `n` bytes of a number. -/
def arrOf (n v : ℕ) : ByteArr n := ⟨leBytes n v, length_leBytes n v⟩

/-- A number for a byte string, in place of a hash. -/
def digest (b : Bytes) : ℕ := leNat b % (2 ^ 255 - 19)

/-- The tag of the record with number `n` under a key and header. -/
def paperTag (key : ByteArr 32) (header : ByteArr headerBytes) (n : ℕ) (m : Bytes) :
    ByteArr aBytes :=
  arrOf aBytes (digest (key.toList ++ header.toList ++ m) + n)

/-- A signature is the public key and a digest of the message; the session keys are the
ephemeral public keys themselves; a record is the message and a tag. -/
def paper : Sodium where
  signPublicKey sk := ⟨sk.toList.drop 32, by simp⟩
  signDetached message sk :=
    ⟨sk.toList.drop 32 ++ leBytes 32 (digest message), by simp⟩
  signVerifyDetached sig message pk :=
    sig.toList = pk.toList ++ leBytes 32 (digest message)
  kxPublicKey sk := sk
  kxServerSessionKeys pk _ clientPk := some ⟨clientPk, pk⟩
  kxClientSessionKeys pk _ serverPk := some ⟨serverPk, pk⟩
  secretstream :=
    { Push := ByteArr 32 × ByteArr headerBytes × ℕ
      Pull := ByteArr 32 × ByteArr headerBytes × ℕ
      push := fun (key, header, n) m =>
        (m ++ (paperTag key header n m).toList, (key, header, n + 1))
      pull := fun (key, header, n) r =>
        let m := r.take (r.length - aBytes)
        if r = m ++ (paperTag key header n m).toList then some (m, (key, header, n + 1))
        else none }
  initPush key header := (key, header, 0)
  initPull header key := some (key, header, 0)

/-- Its signatures verify. -/
theorem paper_signCorrect : paper.SignCorrect := by
  intro message sk
  simp [paper]

/-- The keys of its two sides agree. -/
theorem paper_kxContract : paper.KxContract := by
  intro serverSk clientSk
  exact ⟨clientSk, serverSk, rfl, rfl⟩

/-- Its records open. -/
theorem paper_pull_push (st : ByteArr 32 × ByteArr headerBytes × ℕ) (m : Bytes) :
    paper.secretstream.pull st (paper.secretstream.push st m).1 =
      some (m, (paper.secretstream.push st m).2) := by
  obtain ⟨key, header, n⟩ := st
  have htake : (m ++ (paperTag key header n m).toList).take
      ((m ++ (paperTag key header n m).toList).length - aBytes) = m := by
    rw [List.length_append, List.Vector.toList_length, Nat.add_sub_cancel, List.take_left]
  simp only [paper, htake, if_true]

/-- Its streams stay in step. -/
theorem paper_streamContract : paper.StreamContract where
  inSync key header := by
    refine ⟨(key, header, 0), rfl, ?_⟩
    have hstep : ∀ (st t : ByteArr 32 × ByteArr headerBytes × ℕ) (m : Bytes), st = t →
        ∃ t', paper.secretstream.pull t (paper.secretstream.push st m).1 = some (m, t') ∧
          (paper.secretstream.push st m).2 = t' := by
      rintro st - m rfl
      exact ⟨_, paper_pull_push st m, rfl⟩
    exact AuthStream.InSync.of_step hstep rfl
  length_push st m := by
    obtain ⟨key, header, n⟩ := st
    simp [paper]

/-- A record is the message and its number, and the receiver has been told `records`, each
with its message. -/
def ideal (records : List (Bytes × Bytes)) : Sodium where
  signPublicKey := paper.signPublicKey
  signDetached := paper.signDetached
  signVerifyDetached := paper.signVerifyDetached
  kxPublicKey := paper.kxPublicKey
  kxServerSessionKeys := paper.kxServerSessionKeys
  kxClientSessionKeys := paper.kxClientSessionKeys
  secretstream :=
    { Push := ℕ
      Pull := List (Bytes × Bytes)
      push := fun n m => (m ++ leBytes aBytes n, n + 1)
      pull := fun
        | [], _ => none
        | (m, r) :: rest, r' => if r' = r then some (m, rest) else none }
  initPush _ _ := 0
  initPull _ _ := some records

/-- The ideal one opens exactly what has been sent. -/
theorem ideal_exactly (records expected : List (Bytes × Bytes)) :
    (ideal records).secretstream.Exactly expected expected := by
  induction expected with
  | nil => exact fun _ => rfl
  | cons e rest ih => exact ⟨⟨rest, if_pos rfl, ih⟩, fun _ hr => if_neg hr⟩

end Sodium

end TetherDisplay.Crypto
