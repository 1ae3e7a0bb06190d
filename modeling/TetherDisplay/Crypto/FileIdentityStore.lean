import TetherDisplay.Crypto.Sodium
import TetherDisplay.Foundations.Runs

/-!
# The identity store in a file

`FileIdentityStore` keeps the device's identity and the pinned peer in one record of 130 bytes.  A
save reads the record, changes one half of it and writes all of it to the file, which opening has
emptied.  A record of another length is no record.

So the file is two cells, `cells`, as long as every record arrives whole (`cells_exec`).  A write
that is cut short leaves neither, and with the pin the device forgets that it was paired.
`Whole` says of a save when this does no harm: the cells were empty anyway, or what was to be saved
was there already.
-/

namespace TetherDisplay.Crypto

/-! ## The record -/

/-- `Identity`, as the bytes of a file. -/
structure StoredIdentity where
  signPk : PublicKey := .replicate 32 0
  signSk : ByteArr 64 := .replicate 64 0
  deriving DecidableEq

/-- The record of the file: the two cells and whether they are set. -/
structure Record where
  hasSelf : Bool := false
  self : StoredIdentity := {}
  hasPeer : Bool := false
  peer : PublicKey := .replicate 32 0
  deriving DecidableEq

/-- `1 + kPkLen + kSkLen + 1 + 32`. -/
def kRecordLen : ℕ := 130

/-- `std::copy_n(b.begin() + o, n, …)`. -/
def copyN {b : Bytes} (o n : ℕ) (h : o + n ≤ b.length) : ByteArr n :=
  ⟨(b.drop o).take n, by rw [List.length_take, List.length_drop]; omega⟩

/-- The contents of a file, `none` if there is no file. -/
abbrev File := Option Bytes

/-- `ReadRecord`: a file of any other length is none. -/
def readRecord : File → Option Record
  | none => none
  | some b =>
      if h : b.length = kRecordLen then
        have hlen : b.length = 130 := h
        some
          { hasSelf := b.getD 0 0 ≠ 0
            self :=
              { signPk := copyN (b := b) 1 32 (by omega)
                signSk := copyN (b := b) 33 64 (by omega) }
            hasPeer := b.getD 97 0 ≠ 0
            peer := copyN (b := b) 98 32 (by omega) }
      else none

/-- The 130 bytes of a record. -/
def Record.bytes (r : Record) : Bytes :=
  (if r.hasSelf then 1 else 0) :: (r.self.signPk.toList ++ (r.self.signSk.toList ++
    ((if r.hasPeer then 1 else 0) :: r.peer.toList)))

@[simp] theorem Record.length_bytes (r : Record) : r.bytes.length = kRecordLen := by
  simp [Record.bytes, kRecordLen]

theorem copyN_eq {b : Bytes} {o n : ℕ} {h : o + n ≤ b.length} {v : ByteArr n}
    (hdrop : ∃ rest, b.drop o = v.toList ++ rest) : copyN o n h = v := by
  obtain ⟨rest, hdrop⟩ := hdrop
  apply List.Vector.eq
  show (b.drop o).take n = v.toList
  rw [hdrop]
  exact List.take_left' v.toList_length

theorem getD_eq_drop (b : Bytes) (o : ℕ) : b.getD o 0 = (b.drop o).getD 0 0 := by
  rw [List.getD_eq_getElem?_getD, List.getD_eq_getElem?_getD, List.getElem?_drop, Nat.add_zero]

/-- **A record that is written is read back.** -/
theorem readRecord_bytes (r : Record) : readRecord (some r.bytes) = some r := by
  obtain ⟨hasSelf, ⟨signPk, signSk⟩, hasPeer, peer⟩ := r
  generalize hb : Record.bytes ⟨hasSelf, ⟨signPk, signSk⟩, hasPeer, peer⟩ = b
  have hlen : b.length = kRecordLen := by rw [← hb, Record.length_bytes]
  have hflag : ∀ f : Bool, decide ((if f then 1 else 0 : UInt8) ≠ 0) = f := by decide
  -- What the record goes on with from each offset that a field is copied from.
  have hpk : b.drop 1 = signPk.toList ++ (signSk.toList ++
      ((if hasPeer then 1 else 0) :: peer.toList)) := by
    rw [← hb]
    rfl
  have hsk : b.drop 33 = signSk.toList ++ ((if hasPeer then 1 else 0) :: peer.toList) := by
    rw [show 33 = 1 + 32 from rfl, ← List.drop_drop, hpk, List.drop_left' signPk.toList_length]
  have hpeerFlag : b.drop 97 = (if hasPeer then 1 else 0) :: peer.toList := by
    rw [show 97 = 33 + 64 from rfl, ← List.drop_drop, hsk, List.drop_left' signSk.toList_length]
  have hpeer : b.drop 98 = peer.toList := by
    rw [show 98 = 97 + 1 from rfl, ← List.drop_drop, hpeerFlag]
    rfl
  have hselfFlag : b.getD 0 0 = if hasSelf then 1 else 0 := by
    rw [← hb]
    rfl
  rw [readRecord, dif_pos hlen, Option.some.injEq, Record.mk.injEq, StoredIdentity.mk.injEq,
    getD_eq_drop b 97, hpeerFlag, hselfFlag]
  exact ⟨hflag hasSelf, ⟨copyN_eq ⟨_, hpk⟩, copyN_eq ⟨_, hsk⟩⟩, hflag hasPeer,
    copyN_eq ⟨[], by rw [hpeer, List.append_nil]⟩⟩

/-- A record that is cut short is none. -/
theorem readRecord_take (r : Record) {k : ℕ} (hk : k < kRecordLen) :
    readRecord (some (r.bytes.take k)) = none := by
  rw [readRecord, dif_neg]
  rw [List.length_take, r.length_bytes]
  omega

/-- A record that is cut behind its end is whole. -/
theorem take_bytes (r : Record) {k : ℕ} (hk : ¬ k < kRecordLen) : r.bytes.take k = r.bytes :=
  List.take_of_length_le (by rw [r.length_bytes]; omega)

/-! ## The store -/

/-- What becomes of a write of a record to the file. -/
inductive Write where
  | done
  /-- The file cannot be opened. -/
  | refused
  /-- The file is emptied and holds `k` bytes of the record when the write fails, or when the
  process dies. -/
  | cut (k : ℕ) (died : Bool)
  /-- The stream's buffer takes the record, and of the buffer `k` bytes arrive when the stream is
  closed, which nobody asks for. -/
  | lost (k : ℕ)
  deriving DecidableEq

/-- The result, `none` if the process has died, and the file. -/
def writeRecord (file : File) (r : Record) : Write → Option Bool × File
  | .done => (some true, some r.bytes)
  | .refused => (some false, file)
  | .cut k died => (if died then none else some false, some (r.bytes.take k))
  | .lost k => (some true, some (r.bytes.take k))

/-- Is the save reported as a success? -/
def Write.reported : Write → Bool
  | .done | .lost _ => true
  | .refused | .cut _ _ => false

namespace FileIdentityStore

/-- `LoadSelf`. -/
def loadSelf (file : File) : Option StoredIdentity :=
  (readRecord file).bind fun r => if r.hasSelf then some r.self else none

/-- `LoadPeer`. -/
def loadPeer (file : File) : Option PublicKey :=
  (readRecord file).bind fun r => if r.hasPeer then some r.peer else none

/-- A save reads the record, changes it and writes it back. -/
def save (change : Record → Record) (file : File) (write : Write) : Option Bool × File :=
  writeRecord file (change ((readRecord file).getD {})) write

/-- `SaveSelf`. -/
def saveSelf (id : StoredIdentity) : File → Write → Option Bool × File :=
  save fun r => { r with hasSelf := true, self := id }

/-- `SavePeer`. -/
def savePeer (peer : PublicKey) : File → Write → Option Bool × File :=
  save fun r => { r with hasPeer := true, peer := peer }

/-- What the owner does, and what becomes of the writes. -/
inductive Op where
  | loadSelf
  | loadPeer
  | saveSelf (id : StoredIdentity) (write : Write)
  | savePeer (peer : PublicKey) (write : Write)

/-- The result of a save and the file after an operation. -/
def run (file : File) : Op → Option Bool × File
  | .loadSelf | .loadPeer => (none, file)
  | .saveSelf id write => saveSelf id file write
  | .savePeer peer write => savePeer peer file write

/-- The file after an operation. -/
def step (file : File) (op : Op) : File := (run file op).2

/-! ## Two cells -/

/-- What the store is for. -/
structure Cells where
  self : Option StoredIdentity := none
  peer : Option PublicKey := none
  deriving DecidableEq

/-- The cells that the loads see. -/
def cells (file : File) : Cells := ⟨loadSelf file, loadPeer file⟩

/-- An operation on the cells: a save sets its cell or fails. -/
def Cells.step (c : Cells) : Op → Cells
  | .loadSelf | .loadPeer => c
  | .saveSelf id write => if write.reported then { c with self := some id } else c
  | .savePeer peer write => if write.reported then { c with peer := some peer } else c

/-- A successful save is seen by its load and leaves the other cell, and anything else leaves
both.  A device that is paired stays so. -/
structure Atomic (file : File) (op : Op) : Prop where
  selfSaved : ∀ id write, op = .saveSelf id write → (run file op).1 = some true →
    loadSelf (step file op) = some id ∧ loadPeer (step file op) = loadPeer file
  peerSaved : ∀ peer write, op = .savePeer peer write → (run file op).1 = some true →
    loadPeer (step file op) = some peer ∧ loadSelf (step file op) = loadSelf file
  failed : (run file op).1 ≠ some true →
    loadSelf (step file op) = loadSelf file ∧ loadPeer (step file op) = loadPeer file
  pinned : (loadPeer file).isSome → (loadPeer (step file op)).isSome

/-- When a write does no harm, where `c` is in the cells and `c'` is to be: all of it arrives, or
nothing is touched.  If it is cut short nothing was there, and if it is cut behind its end `c'`
was. -/
def Harmless (c c' : Cells) : Write → Prop
  | .done | .refused => True
  | .cut k _ => if k < kRecordLen then c = {} else c' = c
  | .lost k => kRecordLen ≤ k

/-- The write of an operation does no harm, if it is a save. -/
def Whole (file : File) : Op → Prop
  | .loadSelf | .loadPeer => True
  | .saveSelf id write => Harmless (cells file) { cells file with self := some id } write
  | .savePeer peer write => Harmless (cells file) { cells file with peer := some peer } write

/-! ### A save on the cells -/

/-- The cells of a record. -/
def ofRecord (r : Record) : Cells :=
  ⟨if r.hasSelf then some r.self else none, if r.hasPeer then some r.peer else none⟩

/-- The cells of a record that has been written. -/
theorem cells_bytes (r : Record) : cells (some r.bytes) = ofRecord r := by
  rw [cells, loadSelf, loadPeer, readRecord_bytes]
  rfl

theorem loads_of_cells {file : File} {c : Cells} (h : cells file = c) :
    loadSelf file = c.self ∧ loadPeer file = c.peer :=
  ⟨congrArg Cells.self h, congrArg Cells.peer h⟩

/-- One that is cut short has none. -/
theorem cells_take (r : Record) {k : ℕ} (hk : k < kRecordLen) :
    cells (some (r.bytes.take k)) = {} := by
  rw [cells, loadSelf, loadPeer, readRecord_take r hk]
  rfl

/-- The cells are those of the record that a save starts from. -/
theorem cells_eq (file : File) : cells file = ofRecord ((readRecord file).getD {}) := by
  rw [cells, loadSelf, loadPeer]
  cases readRecord file <;> rfl

section Save

variable {change : Record → Record} {file : File} {write : Write}

/-- When a save succeeds. -/
theorem save_reported : (save change file write).1 = some true ↔ write.reported = true := by
  cases write with
  | done => exact iff_of_true rfl rfl
  | refused => exact iff_of_false (by simp [save, writeRecord]) (by simp [Write.reported])
  | cut k died => cases died <;> simp [save, writeRecord, Write.reported]
  | lost k => exact iff_of_true rfl rfl

variable (set : Cells → Cells)

/-- A save that arrives whole sets its cell. -/
theorem cells_whole (hset : ∀ r, ofRecord (change r) = set (ofRecord r)) :
    cells (some (change ((readRecord file).getD {})).bytes) = set (cells file) := by
  rw [cells_bytes, hset, cells_eq]

/-- **A save sets the cells or leaves them** exactly where its write does no harm. -/
theorem save_iff (hset : ∀ r, ofRecord (change r) = set (ofRecord r)) (hne : ∀ c, set c ≠ {}) :
    cells (save change file write).2 =
        (if write.reported then set (cells file) else cells file) ↔
      Harmless (cells file) (set (cells file)) write := by
  have hwhole : cells (some (change ((readRecord file).getD {})).bytes) = set (cells file) :=
    cells_whole set hset
  cases write with
  | done => exact iff_of_true hwhole trivial
  | refused => exact iff_of_true rfl trivial
  | cut k died =>
      show cells (some ((change ((readRecord file).getD {})).bytes.take k)) = cells file ↔
        if k < kRecordLen then cells file = {} else set (cells file) = cells file
      by_cases hk : k < kRecordLen
      · rw [cells_take _ hk, if_pos hk, eq_comm]
      · rw [take_bytes _ hk, if_neg hk, hwhole]
  | lost k =>
      show cells (some ((change ((readRecord file).getD {})).bytes.take k)) = set (cells file) ↔
        kRecordLen ≤ k
      by_cases hk : k < kRecordLen
      · rw [cells_take _ hk]
        exact iff_of_false (fun h => hne _ h.symm) (Nat.not_le.mpr hk)
      · rw [take_bytes _ hk]
        exact iff_of_true hwhole (Nat.not_lt.mp hk)

end Save

/-- **The operations act on the cells** exactly where no write does harm. -/
theorem cells_step_iff (file : File) (op : Op) :
    cells (step file op) = (cells file).step op ↔ Whole file op := by
  cases op with
  | loadSelf => exact iff_of_true rfl trivial
  | loadPeer => exact iff_of_true rfl trivial
  | saveSelf id write =>
      refine save_iff (fun c => { c with self := some id }) (fun r => rfl) fun c h => ?_
      rw [Cells.mk.injEq] at h
      cases h.1
  | savePeer peer write =>
      refine save_iff (fun c => { c with peer := some peer }) (fun r => rfl) fun c h => ?_
      rw [Cells.mk.injEq] at h
      cases h.2

/-- The cell of the peer is never cleared. -/
theorem Cells.step_pinned {c : Cells} (h : c.peer.isSome) (op : Op) : (c.step op).peer.isSome := by
  cases op with
  | loadSelf => exact h
  | loadPeer => exact h
  | saveSelf id write =>
      rw [Cells.step]
      split_ifs <;> exact h
  | savePeer peer write =>
      rw [Cells.step]
      split_ifs
      · rfl
      · exact h

/-- A save that fails sets none. -/
theorem Cells.step_failed {file : File} {op : Op} (h : (run file op).1 ≠ some true) (c : Cells) :
    c.step op = c := by
  cases op with
  | loadSelf => rfl
  | loadPeer => rfl
  | saveSelf id write => exact if_neg (mt save_reported.mpr h)
  | savePeer peer write => exact if_neg (mt save_reported.mpr h)

/-- Atomic is what refines the cells. -/
theorem atomic_iff_step (file : File) (op : Op) :
    Atomic file op ↔ cells (step file op) = (cells file).step op := by
  constructor
  · intro h
    by_cases hsaved : (run file op).1 = some true
    · cases op with
      | loadSelf => rfl
      | loadPeer => rfl
      | saveSelf id write =>
          obtain ⟨hself, hpeer⟩ := h.selfSaved id write rfl hsaved
          rw [Cells.step, if_pos (save_reported.mp hsaved), cells, hself, hpeer]
          rfl
      | savePeer peer write =>
          obtain ⟨hpeer, hself⟩ := h.peerSaved peer write rfl hsaved
          rw [Cells.step, if_pos (save_reported.mp hsaved), cells, hself, hpeer]
          rfl
    · obtain ⟨hself, hpeer⟩ := h.failed hsaved
      rw [Cells.step_failed hsaved, cells, hself, hpeer]
      rfl
  · intro h
    obtain ⟨hself, hpeer⟩ := loads_of_cells h
    constructor
    · rintro id write rfl hsaved
      rw [hself, hpeer, Cells.step, if_pos (save_reported.mp hsaved)]
      exact ⟨rfl, rfl⟩
    · rintro peer write rfl hsaved
      rw [hself, hpeer, Cells.step, if_pos (save_reported.mp hsaved)]
      exact ⟨rfl, rfl⟩
    · intro hsaved
      rw [hself, hpeer, Cells.step_failed hsaved]
      exact ⟨rfl, rfl⟩
    · intro hpinned
      rw [hpeer]
      exact Cells.step_pinned hpinned op

/-! ### Runs -/

/-- **The file is two cells**, over a run whose writes do no harm. -/
theorem cells_exec {file : File} {ops : List Op} (h : Runs.Admits step Whole file ops) :
    cells (Runs.exec step file ops) = Runs.exec Cells.step (cells file) ops := by
  induction ops generalizing file with
  | nil => rfl
  | cons op ops ih =>
      rw [Runs.exec_cons, Runs.exec_cons, ← (cells_step_iff file op).mpr h.1]
      exact ih h.2

/-- **When every operation is atomic.**  From any file, every operation of a run acts on its own
cell alone, a save that fails changes nothing and a pinned peer stays pinned, exactly if no write
of the run does harm. -/
theorem atomic_iff_whole (file : File) (ops : List Op) :
    (∀ front op back, ops = front ++ op :: back → Atomic (Runs.exec step file front) op) ↔
      Runs.Admits step Whole file ops := by
  rw [Runs.admits_iff]
  simp only [atomic_iff_step, cells_step_iff]

/-- A paired device whose process dies in its next save, between the emptying of the file and the
first byte: the device has lost its identity and its pin. -/
theorem pin_lost :
    let id : StoredIdentity := { signPk := .replicate 32 1, signSk := .replicate 64 2 }
    let peer : PublicKey := .replicate 32 3
    let file := Runs.exec step none [.saveSelf id .done, .savePeer peer .done]
    let op : Op := .saveSelf id (.cut 0 true)
    loadSelf file = some id ∧ loadPeer file = some peer ∧ (run file op).1 = none ∧
      loadSelf (step file op) = none ∧ loadPeer (step file op) = none ∧ ¬ Atomic file op := by
  intro id peer file op
  have hpaired : cells file = ⟨some id, some peer⟩ :=
    cells_exec ⟨trivial, trivial, trivial⟩
  have htorn : cells (step file op) = {} := cells_take _ (by decide)
  obtain ⟨hself, hpeer⟩ := loads_of_cells hpaired
  obtain ⟨hforgot, hlost⟩ := loads_of_cells htorn
  have hdied : (run file op).1 = none := rfl
  refine ⟨hself, hpeer, hdied, hforgot, hlost, fun h => ?_⟩
  have hpinned := h.pinned (by rw [hpeer]; rfl)
  rw [hlost] at hpinned
  cases hpinned

end FileIdentityStore

end TetherDisplay.Crypto
