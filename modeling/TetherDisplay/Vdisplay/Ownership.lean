import TetherDisplay.Vdisplay.Placement

/-!
# The display, its handle and its thread

`Sound` is what a virtual display should be in every state: what the driver has seen is orderly and
leaves the object with what it thinks it has, the keep-alive thread is there while a display is,
and an `Add` that fails leaves nothing behind.

What a step logs takes the driver from what the object held to what it holds, or is out of order,
and then the index that REMOVE was given did not fit (`follows_or_loses`).  So the log is orderly
up to the first such index.  What is left is the state in which a failed `Add` returns: it owns
nothing but where the version handshake or ADD failed, and there the handle is open.
-/

namespace TetherDisplay.Vdisplay

open Custody (Event Holding)

/-- An event as the driver takes it: an answer that is no index acquires nothing. -/
def Ioctl.custody : Ioctl → Event Handle ℕ
  | .open vdd => .opened vdd
  | .version vdd | .update vdd => .used vdd
  | .add vdd index => if 0 ≤ index then .acquired vdd index.toNatClampNeg else .used vdd
  | .remove vdd data => .released vdd (decodeRemoveIndex data)
  | .close vdd => .closed vdd

/-- What the driver makes of the log. -/
def custody (log : List Ioctl) : List (Event Handle ℕ) := log.map Ioctl.custody

namespace VirtualDisplay

variable {s s' : VirtualDisplay}

/-- What the object thinks it has. -/
def holding (s : VirtualDisplay) : Holding Handle ℕ where
  handle := if s.vdd = .invalid then none else some s.vdd
  item := if 0 ≤ s.index then some s.index.toNatClampNeg else none

/-- A display without a handle. -/
theorem holding_nothing (hvdd : s.vdd = .invalid) (hindex : ¬ 0 ≤ s.index) : s.holding = {} := by
  rw [holding, if_pos hvdd, if_neg hindex]

/-- A display with a handle, and no index. -/
theorem holding_open (hvdd : s.vdd ≠ .invalid) (hindex : ¬ 0 ≤ s.index) :
    s.holding = ⟨some s.vdd, none⟩ := by
  rw [holding, if_neg hvdd, if_neg hindex]

/-- A display that has been added. -/
theorem holding_owned (hvdd : s.vdd ≠ .invalid) (hindex : 0 ≤ s.index) :
    s.holding = ⟨some s.vdd, some s.index.toNatClampNeg⟩ := by
  rw [holding, if_neg hvdd, if_pos hindex]

theorem item_ne_none : s.holding.item ≠ none ↔ 0 ≤ s.index := by
  by_cases hindex : 0 ≤ s.index <;> simp [holding, hindex]

theorem holding_congr (hvdd : s'.vdd = s.vdd) (hindex : s'.index = s.index) :
    s'.holding = s.holding := by
  rw [holding, holding, hvdd, hindex]

/-- **What is asked of a virtual display in every state.** -/
structure Sound (s : VirtualDisplay) : Prop where
  /-- A display at a time, through a handle that is open, and removed before the handle is
  closed. -/
  orderly : Custody.run {} (custody s.log) = some s.holding
  /-- Every display added has been removed once, but for the one that is owned. -/
  removed : Custody.acquisitions (custody s.log) =
    Custody.releases (custody s.log) ++ s.holding.outstanding
  /-- The thread runs only while a display is owned, -/
  attends : s.keepAlive.live → s.holding.item ≠ none
  /-- and all that time, but for its start and its join. -/
  attended : s.main.attended → s.holding.item ≠ none → s.keepAlive.live
  alive : s.alive → s.returned = some (.added .ok)
  /-- An `Add` writes `out` as it returns `Ok`. -/
  written : ∀ status, s.returned = some (.added status) → status ≠ .ok → s.out = none
  unwritten : s.main.entered → s.out = none
  failed : ∀ status, s.main = .idle → s.returned = some (.added status) → status ≠ .ok →
    s.holding = {} ∧ s.keepAlive = .absent
  destroyed : s.main = .destroyed → s.holding = {} ∧ s.keepAlive = .absent ∧ s.alive = false

/-- What a step may meet: no `Add` fails at the version handshake or at ADD once it has opened the
device, and no REMOVE is of an index that takes more than 16 bits. -/
def Proper (s : VirtualDisplay) : Input → Prop
  | .main answers =>
      match s.main with
      | .bringUp _ =>
          answers.opens → 0 ≤ vddIoControl answers.version ∧ 0 ≤ vddIoControl answers.add
      | .join _ => s.keepAlive.live = false → 0 ≤ s.index → s.index.toNatClampNeg < 65536
      | _ => True
  | _ => True

/-! ## What a step logs -/

/-- The driver goes from what the object held to what it holds. -/
def Follows (s s' : VirtualDisplay) : Prop :=
  ∃ events, s'.log = s.log ++ events ∧ Custody.run s.holding (custody events) = some s'.holding

/-- The driver is given something out of order. -/
def Loses (s s' : VirtualDisplay) : Prop :=
  ∃ events, s'.log = s.log ++ events ∧ Custody.run s.holding (custody events) = none

/-- What is done with the driver is allowed. -/
theorem Follows.of_log {events : List Ioctl} {d d' : Holding Handle ℕ}
    (hlog : s'.log = s.log ++ events) (hbefore : s.holding = d) (hafter : s'.holding = d')
    (hrun : Custody.run d (custody events) = some d') : Follows s s' :=
  ⟨events, hlog, by rw [hbefore, hafter, hrun]⟩

/-- Nothing is done with the driver. -/
theorem Follows.of_same (hlog : s'.log = s.log) (hvdd : s'.vdd = s.vdd)
    (hindex : s'.index = s.index) : Follows s s' :=
  .of_log (by rw [hlog, List.append_nil]) rfl (holding_congr hvdd hindex) rfl

/-- Nothing more is done with the driver. -/
theorem Follows.trans_same (h : Follows s s') {s'' : VirtualDisplay} (hlog : s''.log = s'.log)
    (hvdd : s''.vdd = s'.vdd) (hindex : s''.index = s'.index) : Follows s s'' := by
  obtain ⟨events, hevents, hrun⟩ := h
  exact ⟨events, hlog.trans hevents, by rw [hrun, holding_congr hvdd hindex]⟩

/-- An index that fits is removed before the handle is closed. -/
theorem tearDown_follows (hvdd : s.vdd ≠ .invalid) (hindex : 0 ≤ s.index)
    (hfits : s.index.toNatClampNeg < 65536) : Follows s s.tearDown := by
  have hnone : ¬ (0 : Int32) ≤ -1 := by decide
  rw [tearDown_owned hvdd hindex]
  refine .of_log rfl (holding_owned hvdd hindex) (holding_nothing rfl hnone) ?_
  simp [custody, Ioctl.custody, decode_encodeRemoveIndex hindex, Nat.mod_eq_of_lt hfits]

/-- An index that does not fit is not: another is removed. -/
theorem tearDown_loses (hvdd : s.vdd ≠ .invalid) (hindex : 0 ≤ s.index)
    (hfits : ¬ s.index.toNatClampNeg < 65536) : Loses s s.tearDown := by
  have hmod : s.index.toNatClampNeg ≠ s.index.toNatClampNeg % 65536 := by omega
  rw [tearDown_owned hvdd hindex]
  refine ⟨_, rfl, ?_⟩
  rw [holding_owned hvdd hindex]
  simp [custody, Ioctl.custody, decode_encodeRemoveIndex hindex,
    Custody.step_released_of_ne _ hmod]

/-- Where no display is owned there is at most the handle to close. -/
theorem tearDown_follows_of_none (hindex : ¬ 0 ≤ s.index) : Follows s s.tearDown := by
  by_cases hvdd : s.vdd = .invalid
  · rw [tearDown_nothing hvdd]
    exact .of_same rfl rfl rfl
  · rw [tearDown_open hvdd hindex]
    refine .of_log rfl (holding_open hvdd hindex) (holding_nothing rfl hindex) ?_
    simp [custody, Ioctl.custody]

/-- `Add` opens the driver and adds one display. -/
theorem bringUp_follows (hvdd : s.vdd = .invalid) (hindex : ¬ 0 ≤ s.index)
    (hthread : s.keepAlive = .absent) (desired : DisplayMode) (answers : Answers) :
    Follows s (s.bringUp desired answers) := by
  have hdevice : Handle.device s.opened ≠ .invalid := by
    intro h
    cases h
  have hnothing := holding_nothing hvdd hindex
  obtain ⟨-, status, -, heq⟩ | ⟨-, -, heq⟩ | ⟨-, -, hadd, heq⟩ | ⟨-, -, hadd, heq⟩ :=
    bringUp_cases hvdd hthread desired answers
  · rw [heq]
    exact .of_same rfl rfl rfl
  · rw [heq]
    refine .of_log rfl hnothing (holding_open hdevice hindex) ?_
    simp [custody, Ioctl.custody, exit]
  · have hnone : ¬ 0 ≤ vddIoControl answers.add := Int32.not_le.mpr hadd
    rw [heq]
    refine .of_log rfl hnothing (holding_open hdevice hnone) ?_
    simp [custody, Ioctl.custody, exit, if_neg hnone]
  · rw [heq]
    refine .of_log rfl hnothing (holding_owned hdevice hadd) ?_
    simp [custody, Ioctl.custody, hadd]

/-- Going on after `Remove` does nothing with the driver. -/
theorem resume_same (s : VirtualDisplay) (purpose : Purpose) :
    (s.resume purpose).log = s.log ∧ (s.resume purpose).vdd = s.vdd ∧
      (s.resume purpose).index = s.index := by
  cases purpose <;> exact ⟨rfl, rfl, rfl⟩

/-- The keep-alive thread uses an open handle. -/
theorem stepKeepAlive_follows (h : s.Placed) : Follows s s.stepKeepAlive := by
  cases hthread : s.keepAlive with
  | absent | finished | checking =>
      rw [stepKeepAlive, hthread]
      exact .of_same rfl rfl rfl
  | updating =>
      have howned : 0 ≤ s.index := h.owned_of_live (by rw [hthread]; rfl)
      have hheld := holding_owned (h.handle_of_owned howned) howned
      rw [stepKeepAlive, hthread]
      refine .of_log rfl hheld hheld ?_
      simp [custody, Ioctl.custody]

theorem stepMain_join {purpose : Purpose} (hmain : s.main = .join purpose)
    (hlive : s.keepAlive.live = false) (answers : Answers) :
    s.stepMain answers = (tearDown { s with keepAlive := .absent }).resume purpose := by
  rw [stepMain, hmain]
  simp [hlive]

/-- A `Remove` of an index that does not fit. -/
theorem join_loses (h : s.Placed) {purpose : Purpose} (hmain : s.main = .join purpose)
    (hlive : s.keepAlive.live = false) (howned : 0 ≤ s.index)
    (hfits : ¬ s.index.toNatClampNeg < 65536) (answers : Answers) :
    Loses s (s.stepMain answers) := by
  obtain ⟨events, hevents, hnone⟩ : Loses s (tearDown { s with keepAlive := .absent }) :=
    tearDown_loses (h.handle_of_owned howned) howned hfits
  rw [stepMain_join hmain hlive]
  exact ⟨events, (resume_same _ purpose).1.trans hevents, hnone⟩

/-- A `Remove` of an index that fits, or of none. -/
theorem join_follows (h : s.Placed) {purpose : Purpose} (hmain : s.main = .join purpose)
    (hlive : s.keepAlive.live = false) (hfits : 0 ≤ s.index → s.index.toNatClampNeg < 65536)
    (answers : Answers) : Follows s (s.stepMain answers) := by
  have hdown : Follows s (tearDown { s with keepAlive := .absent }) := by
    by_cases howned : 0 ≤ s.index
    · exact tearDown_follows (h.handle_of_owned howned) howned (hfits howned)
    · exact tearDown_follows_of_none howned
  obtain ⟨hlog, hvdd, hindex⟩ := resume_same (tearDown { s with keepAlive := .absent }) purpose
  rw [stepMain_join hmain hlive]
  exact hdown.trans_same hlog hvdd hindex

/-- A step of the main thread is allowed, or loses the display. -/
theorem stepMain_follows_or_loses (h : s.Placed) (answers : Answers) :
    Follows s (s.stepMain answers) ∨ ¬ s.Proper (.main answers) ∧ Loses s (s.stepMain answers) := by
  have hgoing (howning : s.main.owning) : Follows s (s.stepMain answers) := by
    obtain ⟨p, -, -, heq⟩ | ⟨info, heq⟩ := stepMain_owning howning answers
    · rw [heq]
      exact .of_same rfl rfl rfl
    · rw [heq]
      exact .of_same rfl rfl rfl
  cases hmain : s.main with
  | wait | choose | apply => exact Or.inl (hgoing (by rw [hmain]; rfl))
  | idle | destroyed | stop =>
      rw [stepMain, hmain]
      exact Or.inl (.of_same rfl rfl rfl)
  | bringUp desired =>
      obtain ⟨hvdd, hindex, hthread, -, -⟩ := h.nothing_of_bringUp hmain
      rw [stepMain, hmain]
      exact Or.inl (bringUp_follows hvdd hindex hthread desired answers)
  | join purpose =>
      cases hlive : s.keepAlive.live with
      | false =>
          by_cases hfits : 0 ≤ s.index → s.index.toNatClampNeg < 65536
          · exact Or.inl (join_follows h hmain hlive hfits answers)
          · obtain ⟨howned, hlarge⟩ := Classical.not_imp.mp hfits
            refine Or.inr ⟨fun hproper => ?_, join_loses h hmain hlive howned hlarge answers⟩
            rw [Proper, hmain] at hproper
            exact hfits (hproper hlive)
      | true =>
          rw [stepMain, hmain]
          simp only [hlive, if_true]
          exact Or.inl (.of_same rfl rfl rfl)

/-- **What a step logs**, in any environment: the driver follows the object, up to a REMOVE of an
index that does not fit. -/
theorem follows_or_loses (h : s.Placed) (i : Input) :
    Follows s (s.step i) ∨ ¬ s.Proper i ∧ Loses s (s.step i) := by
  cases i with
  | keepAlive => exact Or.inl (stepKeepAlive_follows h)
  | add | remove | destroy =>
      refine Or.inl ?_
      rw [step]
      split_ifs with hmain
      · exact .of_same rfl rfl rfl
      · exact .of_same rfl rfl rfl
  | main answers => exact stepMain_follows_or_loses h answers

/-! ## The invariant of a run -/

/-- A log goes on from where it has come to. -/
theorem run_log {events : List Ioctl} (hlog : s'.log = s.log ++ events) :
    Custody.run {} (custody s'.log) =
      (Custody.run {} (custody s.log)).bind fun d => Custody.run d (custody events) := by
  rw [hlog, custody, List.map_append, Custody.run_append]
  rfl

/-- The driver has what the object thinks it has, as far as the log is orderly. -/
structure Tracked (s : VirtualDisplay) : Prop where
  placed : s.Placed
  held : ∀ d, Custody.run {} (custody s.log) = some d → d = s.holding

/-- **One step keeps it.** -/
theorem Tracked.step (h : s.Tracked) (i : Input) : (s.step i).Tracked where
  placed := h.placed.step i
  held d hd := by
    obtain ⟨events, hlog, hrun⟩ | ⟨-, events, hlog, hrun⟩ := follows_or_loses h.placed i
    · rw [run_log hlog, Option.bind_eq_some_iff] at hd
      obtain ⟨d₀, hbefore, hafter⟩ := hd
      rw [h.held d₀ hbefore, hrun] at hafter
      exact (Option.some.inj hafter).symm
    · rw [run_log hlog, Option.bind_eq_some_iff] at hd
      obtain ⟨d₀, hbefore, hafter⟩ := hd
      rw [h.held d₀ hbefore, hrun] at hafter
      cases hafter

/-- An `Add` that failed has left no handle. -/
def Clean (s : VirtualDisplay) : Prop :=
  ∀ status, s.main = .idle → s.returned = some (.added status) → status ≠ .ok → s.vdd = .invalid

/-- In the middle of a call nothing is asked. -/
theorem Clean.of_busy (hmain : s.main ≠ .idle) : s.Clean := fun _ hidle => absurd hidle hmain

/-- A step of the main thread keeps it. -/
theorem Clean.stepMain (hclean : s.Clean) (h : s.Placed) (answers : Answers)
    (hproper : s.Proper (.main answers)) : (s.stepMain answers).Clean := by
  have hgoing (howning : s.main.owning) : (s.stepMain answers).Clean := by
    obtain ⟨p, hadding, -, heq⟩ | ⟨info, heq⟩ := stepMain_owning howning answers
    · rw [heq]
      refine .of_busy fun hidle => ?_
      have hp : p = .idle := hidle
      rw [hp] at hadding
      cases hadding
    · rw [heq]
      intro status _ hreturned hfail
      cases hreturned
      exact absurd rfl hfail
  cases hmain : s.main with
  | wait | choose | apply => exact hgoing (by rw [hmain]; rfl)
  | idle | destroyed =>
      rw [VirtualDisplay.stepMain, hmain]
      exact hclean
  | stop purpose =>
      rw [VirtualDisplay.stepMain, hmain]
      exact .of_busy fun hidle => by cases hidle
  | bringUp desired =>
      obtain ⟨hvdd, -, hthread, -, -⟩ := h.nothing_of_bringUp hmain
      rw [Proper, hmain] at hproper
      rw [VirtualDisplay.stepMain, hmain]
      obtain ⟨-, status, -, heq⟩ | ⟨hopens, hversion, -⟩ | ⟨hopens, -, hadd, -⟩ | ⟨-, -, -, heq⟩ :=
        bringUp_cases hvdd hthread desired answers
      · intro _ _ _ _
        exact (congrArg vdd heq).trans hvdd
      · exact absurd (hproper hopens).1 (Int32.not_le.mpr hversion)
      · exact absurd (hproper hopens).2 (Int32.not_le.mpr hadd)
      · refine .of_busy fun hidle => ?_
        have hwait : Point.wait desired answers.names 0 = .idle :=
          (congrArg main heq).symm.trans hidle
        cases hwait
  | join purpose =>
      cases hlive : s.keepAlive.live with
      | false =>
          have hvdd := (tearDown_spec (h.joined hmain).handle_of_owned).1
          rw [stepMain_join hmain hlive]
          intro _ _ _ _
          exact (resume_same _ purpose).2.1.trans hvdd
      | true =>
          rw [VirtualDisplay.stepMain, hmain]
          simp only [hlive, if_true]
          exact hclean

/-- One step keeps it. -/
theorem Clean.step (hclean : s.Clean) (h : s.Placed) (i : Input) (hproper : s.Proper i) :
    (s.step i).Clean := by
  cases i with
  | add | remove | destroy =>
      rw [VirtualDisplay.step]
      split_ifs with hmain
      · exact .of_busy fun hidle => by cases hidle
      · exact hclean
  | main answers => exact hclean.stepMain h answers hproper
  | keepAlive =>
      rw [VirtualDisplay.step, stepKeepAlive]
      cases s.keepAlive with
      | absent | finished | checking | updating => exact hclean

/-- What is kept is what is claimed. -/
theorem sound_of_clean (h : s.Placed)
    (horderly : Custody.run {} (custody s.log) = some s.holding) (hclean : s.Clean) : s.Sound where
  orderly := horderly
  removed := Custody.acquisitions_eq horderly
  attends hlive := item_ne_none.mpr (h.owned_of_live hlive)
  attended hattended howned := (h.attended hattended (item_ne_none.mp howned)).1
  alive halive := (h.alive halive).1
  written := h.written
  unwritten := h.out
  failed status hidle hreturned hfail := by
    have hvdd := hclean status hidle hreturned hfail
    exact ⟨holding_nothing hvdd (h.nothing hvdd).1, (h.nothing hvdd).2⟩
  destroyed hdestroyed := by
    have hvdd : s.vdd = .invalid := h.bare (by rw [hdestroyed]; rfl)
    refine ⟨holding_nothing hvdd (h.nothing hvdd).1, (h.nothing hvdd).2, ?_⟩
    by_contra halive
    exact (h.alive (by simpa using halive)).2.2 hdestroyed

/-- A step that comes to a sound state is orderly. -/
theorem Sound.not_loses (hsound : s'.Sound) (h : s.Tracked) : ¬ Loses s s' := by
  rintro ⟨events, hlog, hrun⟩
  have horderly := hsound.orderly
  rw [run_log hlog, Option.bind_eq_some_iff] at horderly
  obtain ⟨d, hbefore, hafter⟩ := horderly
  rw [h.held d hbefore, hrun] at hafter
  cases hafter

/-- An `Add` that fails comes to a sound state only where it leaves no handle. -/
theorem Sound.nothing_of_exit {status : VddStatus} (hsound : (s.exit (.added status)).Sound)
    (hfail : status ≠ .ok) : s.vdd = .invalid := by
  by_contra hvdd
  have hheld := congrArg Holding.handle (hsound.failed status rfl rfl hfail).1
  rw [show (s.exit (.added status)).holding.handle = some s.vdd from if_neg hvdd] at hheld
  cases hheld

/-- A step after which all is well was a proper one. -/
theorem proper_of_sound (h : s.Tracked) {i : Input} (hsound : (s.step i).Sound) : s.Proper i := by
  cases i with
  | add | remove | destroy | keepAlive => trivial
  | main answers =>
      have hsound' : (s.stepMain answers).Sound := hsound
      rw [Proper]
      cases hmain : s.main with
      | idle | destroyed | stop | wait | choose | apply => trivial
      | join purpose =>
          intro hlive howned
          by_contra hlarge
          exact hsound.not_loses h (join_loses h.placed hmain hlive howned hlarge answers)
      | bringUp desired =>
          obtain ⟨hvdd, -, hthread, -, -⟩ := h.placed.nothing_of_bringUp hmain
          have hstep : s.stepMain answers = s.bringUp desired answers := by rw [stepMain, hmain]
          obtain ⟨hopens, -⟩ | ⟨-, -, heq⟩ | ⟨-, -, -, heq⟩ | ⟨-, hversion, hadd, -⟩ :=
            bringUp_cases hvdd hthread desired answers
          · intro h
            rw [hopens] at h
            cases h
          · rw [hstep, heq] at hsound'
            have hnothing := hsound'.nothing_of_exit (by decide)
            cases hnothing
          · rw [hstep, heq] at hsound'
            have hnothing := hsound'.nothing_of_exit (by decide)
            cases hnothing
          · exact fun _ => ⟨hversion, hadd⟩

/-! ## The runs -/

/-- The invariant of a run that is proper. -/
structure Kept (s : VirtualDisplay) : Prop where
  placed : s.Placed
  orderly : Custody.run {} (custody s.log) = some s.holding
  clean : s.Clean

theorem kept_start : Kept {} where
  placed := placed_start
  orderly := rfl
  clean _ _ h := by cases h

/-- **One proper step keeps it.** -/
theorem Kept.step (h : s.Kept) (i : Input) (hproper : s.Proper i) : (s.step i).Kept where
  placed := h.placed.step i
  orderly := by
    obtain ⟨events, hlog, hrun⟩ | ⟨himproper, -⟩ := follows_or_loses h.placed i
    · rw [run_log hlog, h.orderly, Option.bind_some, hrun]
    · exact absurd hproper himproper
  clean := h.clean.step h.placed i hproper

theorem tracked_start : Tracked {} where
  placed := placed_start
  held _ hd := (Option.some.inj hd).symm

/-- **The virtual display is sound in every state of a run exactly when the run is proper.** -/
theorem sound_iff (inputs : List Input) :
    (∀ front back, inputs = front ++ back → (Runs.exec step {} front).Sound) ↔
      Runs.Admits step Proper {} inputs := by
  constructor
  · intro h
    have hguard : ∀ s i, Tracked s → (step s i).Sound → s.Proper i :=
      fun _ _ htracked hsound => proper_of_sound htracked hsound
    exact Runs.admits_of_states hguard (fun _ i htracked => htracked.step i) tracked_start h
  · rintro h front back rfl
    have hkept : Kept (Runs.exec step {} front) :=
      Runs.exec_invariant (fun _ i hkept hproper => hkept.step i hproper) kept_start h.front
    exact sound_of_clean hkept.placed hkept.orderly hkept.clean

/-- The version handshake fails, and `Add` returns with the device open. -/
theorem handle_left_open :
    ¬ (Runs.exec step {} [.add {}, .main {}, .main {}, .main { version := none }]).Sound := by
  intro h
  have hheld := congrArg Holding.handle (h.failed .driverNotRunning rfl rfl (by decide)).1
  cases hheld

end VirtualDisplay

end TetherDisplay.Vdisplay
