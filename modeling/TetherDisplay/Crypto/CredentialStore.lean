import TetherDisplay.Crypto.FileIdentityStore
import TetherDisplay.Crypto.FirstUse

/-!
# The identity store in the Credential Manager

`CredentialManagerStore` keeps the device's own identity and the pinned peer as two credentials.
Each call of the Credential Manager may fail; a write that fails leaves the credential as it was,
and one that succeeds replaces it.  A blob of another length is none.

`LoadOrCreateIdentity` goes by what is found.  An identity that cannot be read is an identity that
is not there: another one is generated and saved in its place, and nobody asks whether that worked.
-/

namespace TetherDisplay.Crypto

/-- `IIdentityStore`, as to the device's own identity. -/
structure SelfStore (σ : Type) where
  loadSelf : σ → Option StoredIdentity
  saveSelf : σ → StoredIdentity → Bool × σ

/-- With the identity that `GenerateIdentity` draws. -/
def loadOrCreateIdentity {σ : Type} (store : SelfStore σ) (st : σ) (fresh : StoredIdentity) :
    StoredIdentity × σ :=
  match store.loadSelf st with
  | some id => (id, st)
  | none => (fresh, (store.saveSelf st fresh).2)

/-- What is kept under the two targets. -/
structure Credentials where
  self : Option Bytes := none
  peer : Option Bytes := none
  deriving DecidableEq

namespace CredentialManagerStore

/-- `CredReadW`, which finds the credential or reports an error. -/
def readBlob (blob : Option Bytes) (works : Bool) : Option Bytes := if works then blob else none

/-- `WriteBlob`. -/
def writeBlob (blob : Option Bytes) (data : Bytes) (works : Bool) : Bool × Option Bytes :=
  if works then (true, some data) else (false, blob)

/-- `LoadSelf`: a blob that is not 96 bytes long is none. -/
def loadSelf (c : Credentials) (works : Bool) : Option StoredIdentity :=
  (readBlob c.self works).bind fun blob =>
    if h : blob.length = 96 then
      some
        { signPk := copyN (b := blob) 0 32 (by omega)
          signSk := copyN (b := blob) 32 64 (by omega) }
    else none

/-- `SaveSelf`: one credential. -/
def saveSelf (c : Credentials) (id : StoredIdentity) (works : Bool) : Bool × Credentials :=
  let (saved, self) := writeBlob c.self (id.signPk.toList ++ id.signSk.toList) works
  (saved, { c with self })

/-- `LoadPeer`: a blob that is not 32 bytes long is none. -/
def loadPeer (c : Credentials) (works : Bool) : Option PublicKey :=
  (readBlob c.peer works).bind fun blob => if h : blob.length = 32 then some ⟨blob, h⟩ else none

/-- `SavePeer`: the other credential. -/
def savePeer (c : Credentials) (peer : PublicKey) (works : Bool) : Bool × Credentials :=
  let (saved, blob) := writeBlob c.peer peer.toList works
  (saved, { c with peer := blob })

/-- The store while its reads and its writes work or not. -/
def selfStore (reads writes : Bool) : SelfStore Credentials where
  loadSelf c := loadSelf c reads
  saveSelf c id := saveSelf c id writes

/-- The store as pairing sees it, where reads and writes work or do not. -/
def identityStore (reads writes : Bool) : IdentityStore Credentials where
  loadPeer c := loadPeer c reads
  savePeer c peer := savePeer c peer writes

variable (c : Credentials)

/-- **An identity that is saved is loaded again.** -/
theorem loadSelf_saveSelf (id : StoredIdentity) :
    loadSelf (saveSelf c id true).2 true = some id := by
  have hlength : (id.signPk.toList ++ id.signSk.toList).length = 96 := by
    rw [List.length_append, List.Vector.toList_length, List.Vector.toList_length]
  have hpk : (id.signPk.toList ++ id.signSk.toList).drop 0 = id.signPk.toList ++
      id.signSk.toList := List.drop_zero
  have hsk : (id.signPk.toList ++ id.signSk.toList).drop 32 = id.signSk.toList ++ [] := by
    rw [List.append_nil]
    exact List.drop_left' id.signPk.toList_length
  show (if h : _ then _ else _) = _
  rw [dif_pos hlength]
  exact congrArg some (congrArg₂ StoredIdentity.mk (copyN_eq ⟨_, hpk⟩) (copyN_eq ⟨_, hsk⟩))

/-- A pin that is saved is loaded again. -/
theorem loadPeer_savePeer (peer : PublicKey) :
    loadPeer (savePeer c peer true).2 true = some peer := by
  show (if h : _ then _ else _) = _
  rw [dif_pos peer.toList_length]
  rfl

/-- The two credentials are apart. -/
theorem loadPeer_saveSelf (id : StoredIdentity) (writes works : Bool) :
    loadPeer (saveSelf c id writes).2 works = loadPeer c works := rfl

/-- The two credentials are apart. -/
theorem loadSelf_savePeer (peer : PublicKey) (writes works : Bool) :
    loadSelf (savePeer c peer writes).2 works = loadSelf c works := rfl

/-- An identity that is found is handed on; otherwise the fresh one is, saved or not. -/
theorem load_found {id : StoredIdentity} {reads : Bool} (h : loadSelf c reads = some id)
    (writes : Bool) (fresh : StoredIdentity) :
    loadOrCreateIdentity (selfStore reads writes) c fresh = (id, c) := by
  unfold loadOrCreateIdentity
  rw [show (selfStore reads writes).loadSelf c = _ from h]

/-- An identity that is not found is generated. -/
theorem load_created {reads : Bool} (h : loadSelf c reads = none) (writes : Bool)
    (fresh : StoredIdentity) :
    loadOrCreateIdentity (selfStore reads writes) c fresh =
      (fresh, (saveSelf c fresh writes).2) := by
  unfold loadOrCreateIdentity
  rw [show (selfStore reads writes).loadSelf c = _ from h]
  rfl

end CredentialManagerStore

end TetherDisplay.Crypto
