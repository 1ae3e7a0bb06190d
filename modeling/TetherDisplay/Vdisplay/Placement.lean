import TetherDisplay.Vdisplay.ParsecVdd

/-!
# What the object owns at each point

`Placed` says what the virtual display owns where the main thread stands, and whether the
keep-alive thread is there.  Every step keeps it, whatever the driver answers (`Placed.step`).  An
`Add` that has given up at the version handshake or at ADD is no exception: it has a handle open,
and at `idle` the invariant does not say whether there is one.
-/

namespace TetherDisplay.Vdisplay

namespace Point

/-- Where the keep-alive thread is in its loop if a display is owned. -/
def attended : Point → Bool
  | .idle | .stop _ | .wait .. | .choose .. | .apply .. => true
  | .destroyed | .join _ | .bringUp _ => false

/-- Where a display is owned. -/
def owning : Point → Bool
  | .wait .. | .choose .. | .apply .. => true
  | .idle | .destroyed | .stop _ | .join _ | .bringUp _ => false

/-- Where nothing is. -/
def bare : Point → Bool
  | .destroyed | .bringUp _ => true
  | .idle | .stop _ | .join _ | .wait .. | .choose .. | .apply .. => false

/-- Inside an `Add` whose first `Remove` is over. -/
def adding : Point → Bool
  | .bringUp _ | .wait .. | .choose .. | .apply .. | .stop (.fail _) | .join (.fail _) => true
  | .idle | .destroyed | .stop _ | .join _ => false

/-- Inside an `Add`. -/
def entered : Point → Bool
  | .stop (.add _) | .join (.add _) => true
  | p => p.adding

variable {p : Point}

theorem not_bare (h : p.attended) : ¬ p.bare := by
  cases p with
  | idle | stop | wait | choose | apply =>
      intro hbare
      cases hbare
  | destroyed | join | bringUp => cases h

theorem of_owning (h : p.owning) : p.attended ∧ p.adding ∧ p.entered := by
  cases p with
  | wait | choose | apply => exact ⟨rfl, rfl, rfl⟩
  | idle | destroyed | stop | join | bringUp => cases h

end Point

namespace VirtualDisplay

variable {s : VirtualDisplay}

/-- **What is so at each point.** -/
structure Placed (s : VirtualDisplay) : Prop where
  handle_of_owned : 0 ≤ s.index → s.vdd ≠ .invalid
  owned_of_thread : s.keepAlive ≠ .absent → 0 ≤ s.index
  attended : s.main.attended → 0 ≤ s.index → s.keepAlive.live ∧ s.keepAliveRun
  owning : s.main.owning → 0 ≤ s.index
  bare : s.main.bare → s.vdd = .invalid
  alive : s.alive → s.returned = some (.added .ok) ∧ !s.main.adding ∧ s.main ≠ .destroyed
  out : s.main.entered → s.out = none
  written : ∀ status, s.returned = some (.added status) → status ≠ .ok → s.out = none

theorem placed_start : Placed {} where
  handle_of_owned h := by cases h
  owned_of_thread h := absurd rfl h
  attended _ h := by cases h
  owning h := by cases h
  bare h := by cases h
  alive h := by cases h
  out _ := rfl
  written _ h := by cases h

/-- The thread is in its loop only while a display is owned. -/
theorem Placed.owned_of_live (h : s.Placed) (hlive : s.keepAlive.live) : 0 ≤ s.index := by
  apply h.owned_of_thread
  intro habsent
  rw [habsent] at hlive
  cases hlive

/-! ## The rest of `Remove` -/

/-- The end of a `Remove` of a display that has been added. -/
theorem tearDown_owned (hvdd : s.vdd ≠ .invalid) (hindex : 0 ≤ s.index) :
    s.tearDown = { s with
      vdd := .invalid
      index := -1
      alive := false
      log := s.log ++
        [.remove s.vdd (encodeRemoveIndex s.index), .update s.vdd, .close s.vdd] } := by
  simp [tearDown, hvdd, hindex]

/-- The end of a `Remove` where only the handle is there. -/
theorem tearDown_open (hvdd : s.vdd ≠ .invalid) (hindex : ¬ 0 ≤ s.index) :
    s.tearDown =
      { s with vdd := .invalid, alive := false, log := s.log ++ [.close s.vdd] } := by
  simp [tearDown, hvdd, hindex]

theorem tearDown_nothing (hvdd : s.vdd = .invalid) : s.tearDown = { s with alive := false } := by
  simp [tearDown, hvdd]

/-- What is left after a `Remove`: nothing, and the rest as it was. -/
theorem tearDown_spec (h : 0 ≤ s.index → s.vdd ≠ .invalid) :
    s.tearDown.vdd = .invalid ∧ ¬ 0 ≤ s.tearDown.index ∧ s.tearDown.keepAlive = s.keepAlive ∧
      s.tearDown.out = s.out ∧ s.tearDown.returned = s.returned := by
  by_cases hindex : 0 ≤ s.index
  · rw [tearDown_owned (h hindex) hindex]
    exact ⟨rfl, (by decide : ¬ (0 : Int32) ≤ -1), rfl, rfl, rfl⟩
  · by_cases hvdd : s.vdd = .invalid
    · rw [tearDown_nothing hvdd]
      exact ⟨hvdd, hindex, rfl, rfl, rfl⟩
    · rw [tearDown_open hvdd hindex]
      exact ⟨rfl, hindex, rfl, rfl, rfl⟩

/-! ## The invariant is kept -/

/-- A state in which the object has nothing and the main thread waits for nothing. -/
theorem placed_of_nothing (hvdd : s.vdd = .invalid) (hindex : ¬ 0 ≤ s.index)
    (hthread : s.keepAlive = .absent) (halive : s.alive = false)
    (howning : s.main.owning = false) (hout : s.main.entered → s.out = none)
    (hwritten : ∀ status, s.returned = some (.added status) → status ≠ .ok → s.out = none) :
    s.Placed where
  handle_of_owned h := absurd h hindex
  owned_of_thread h := absurd hthread h
  attended _ h := absurd h hindex
  owning h := absurd (howning.symm.trans h) Bool.false_ne_true
  bare _ := hvdd
  alive h := absurd (halive.symm.trans h) Bool.false_ne_true
  out := hout
  written := hwritten

/-- The main thread goes on after `Remove`. -/
theorem Placed.resume (h : s.Placed) {purpose : Purpose} (hmain : s.main = .join purpose)
    (hthread : s.keepAlive = .absent) : (s.tearDown.resume purpose).Placed := by
  obtain ⟨hvdd, hindex, hthread', hout', hreturned⟩ := tearDown_spec h.handle_of_owned
  rw [hthread] at hthread'
  have hout := h.out
  rw [hmain, ← hout'] at hout
  cases purpose with
  | remove =>
      refine placed_of_nothing hvdd hindex hthread' rfl rfl (fun hentered => ?_)
        (fun status hstatus => ?_)
      · cases hentered
      · cases hstatus
  | fail status =>
      refine placed_of_nothing hvdd hindex hthread' rfl rfl (fun hentered => ?_)
        (fun _ _ _ => hout rfl)
      cases hentered
  | add desired =>
      exact placed_of_nothing hvdd hindex hthread' rfl rfl (fun _ => hout rfl)
        (fun _ _ _ => hout rfl)
  | destroy =>
      refine placed_of_nothing hvdd hindex hthread' rfl rfl (fun hentered => ?_)
        (fun status hstatus hfail => ?_)
      · cases hentered
      · exact hout'.trans (h.written status (hreturned.symm.trans hstatus) hfail)

/-- Without a handle there is neither a display nor a thread. -/
theorem Placed.nothing (h : s.Placed) (hvdd : s.vdd = .invalid) :
    ¬ 0 ≤ s.index ∧ s.keepAlive = .absent := by
  have hindex : ¬ 0 ≤ s.index := fun howned => h.handle_of_owned howned hvdd
  refine ⟨hindex, ?_⟩
  by_contra hthread
  exact hindex (h.owned_of_thread hthread)

/-- An `Add` that is alone finds nothing. -/
theorem Placed.nothing_of_bringUp (h : s.Placed) {desired : DisplayMode}
    (hmain : s.main = .bringUp desired) :
    s.vdd = .invalid ∧ ¬ 0 ≤ s.index ∧ s.keepAlive = .absent ∧ s.out = none ∧ s.alive = false := by
  have hvdd : s.vdd = .invalid := h.bare (by rw [hmain]; rfl)
  obtain ⟨hindex, hthread⟩ := h.nothing hvdd
  refine ⟨hvdd, hindex, hthread, h.out (by rw [hmain]; rfl), ?_⟩
  by_contra halive
  have hadding := (h.alive (by simpa using halive)).2.1
  rw [hmain] at hadding
  cases hadding

/-- An exit of `Add` before the display is there. -/
theorem placed_of_exit (hindex : ¬ 0 ≤ s.index) (hthread : s.keepAlive = .absent)
    (hout : s.out = none) (halive : s.alive = false) (status : VddStatus) :
    (s.exit (.added status)).Placed where
  handle_of_owned h := absurd h hindex
  owned_of_thread h := absurd hthread h
  attended _ h := absurd h hindex
  owning h := by cases h
  bare h := by cases h
  alive h := absurd (halive.symm.trans h) Bool.false_ne_true
  out h := by cases h
  written _ _ _ := hout

/-- What an `Add` that is alone comes to. -/
theorem bringUp_cases (hvdd : s.vdd = .invalid) (hthread : s.keepAlive = .absent)
    (desired : DisplayMode) (answers : Answers) :
    (answers.opens = false ∧ ∃ status ≠ .ok,
      s.bringUp desired answers = s.exit (.added status)) ∨
    (answers.opens = true ∧ vddIoControl answers.version < 0 ∧
      s.bringUp desired answers = exit { s with
        vdd := .device s.opened
        opened := s.opened + 1
        log := s.log ++ [.open (.device s.opened), .version (.device s.opened)] }
        (.added .driverNotRunning)) ∨
    (answers.opens = true ∧ 0 ≤ vddIoControl answers.version ∧ vddIoControl answers.add < 0 ∧
      s.bringUp desired answers = exit { s with
        vdd := .device s.opened
        opened := s.opened + 1
        index := vddIoControl answers.add
        log := s.log ++ [.open (.device s.opened), .version (.device s.opened),
          .add (.device s.opened) (vddIoControl answers.add), .update (.device s.opened)] }
        (.added .addFailed)) ∨
    (answers.opens = true ∧ 0 ≤ vddIoControl answers.version ∧ 0 ≤ vddIoControl answers.add ∧
      s.bringUp desired answers = { s with
        vdd := .device s.opened
        opened := s.opened + 1
        index := vddIoControl answers.add
        keepAliveRun := true
        keepAlive := .checking
        main := .wait desired answers.names 0
        log := s.log ++ [.open (.device s.opened), .version (.device s.opened),
          .add (.device s.opened) (vddIoControl answers.add), .update (.device s.opened)] }) := by
  cases hopens : answers.opens with
  | false =>
      refine Or.inl ⟨rfl, if answers.interfacePresent then .openFailed else .driverNotFound, ?_, ?_⟩
      · split_ifs <;> decide
      · simp [VirtualDisplay.bringUp, hopens, ← hvdd]
  | true =>
      refine Or.inr ?_
      by_cases hversion : vddIoControl answers.version < 0
      · exact Or.inl ⟨rfl, hversion, by simp [VirtualDisplay.bringUp, hopens, hversion]⟩
      · refine Or.inr ?_
        by_cases hadd : vddIoControl answers.add < 0
        · refine Or.inl ⟨rfl, Int32.not_lt.mp hversion, hadd, ?_⟩
          simp [VirtualDisplay.bringUp, hopens, hversion, hadd]
        · refine Or.inr ⟨rfl, Int32.not_lt.mp hversion, Int32.not_lt.mp hadd, ?_⟩
          simp [VirtualDisplay.bringUp, startKeepAlive, hopens, hversion, hadd, hthread]

/-- `Add` keeps it, whatever is answered. -/
theorem Placed.bringUp (h : s.Placed) {desired : DisplayMode} (hmain : s.main = .bringUp desired)
    (answers : Answers) : (s.bringUp desired answers).Placed := by
  obtain ⟨hvdd, hindex, hthread, hout, halive⟩ := h.nothing_of_bringUp hmain
  obtain ⟨-, status, -, heq⟩ | ⟨-, -, heq⟩ | ⟨-, -, hadd, heq⟩ | ⟨-, -, hadd, heq⟩ :=
    bringUp_cases hvdd hthread desired answers
  · rw [heq]
    exact placed_of_exit hindex hthread hout halive status
  · rw [heq]
    apply placed_of_exit
    · exact hindex
    · exact hthread
    · exact hout
    · exact halive
  · rw [heq]
    apply placed_of_exit
    · exact Int32.not_le.mpr hadd
    · exact hthread
    · exact hout
    · exact halive
  · rw [heq]
    exact
      { handle_of_owned := fun _ hinvalid => by cases hinvalid
        owned_of_thread := fun _ => hadd
        attended := fun _ _ => ⟨rfl, rfl⟩
        owning := fun _ => hadd
        bare := fun hbare => by cases hbare
        alive := fun hlive => absurd (halive.symm.trans hlive) Bool.false_ne_true
        out := fun _ => hout
        written := fun _ _ _ => hout }

/-- Inside an `Add` that has its display. -/
theorem Placed.goOn (h : s.Placed) (howning : s.main.owning) {p : Point}
    (hattended : p.attended) : Placed { s with main := p } := by
  obtain ⟨hhere, hadds, hentered⟩ := Point.of_owning howning
  exact
    { handle_of_owned := h.handle_of_owned
      owned_of_thread := h.owned_of_thread
      attended := fun _ => h.attended hhere
      owning := fun _ => h.owning howning
      bare := fun hbare => absurd hbare (Point.not_bare hattended)
      alive := fun halive => by
        have hnot := (h.alive halive).2.1
        rw [hadds] at hnot
        cases hnot
      out := fun _ => h.out hentered
      written := h.written }

/-- `Add` returns. -/
theorem Placed.exit_ok (h : s.Placed) (howning : s.main.owning) (info : VirtualDisplayInfo) :
    (exit { s with alive := true, out := some info } (.added .ok)).Placed where
  handle_of_owned := h.handle_of_owned
  owned_of_thread := h.owned_of_thread
  attended _ := h.attended (Point.of_owning howning).1
  owning h := by cases h
  bare h := by cases h
  alive _ := ⟨rfl, rfl, fun hmain => by cases hmain⟩
  out h := by cases h
  written status hstatus hfail := by
    cases hstatus
    exact absurd rfl hfail

/-- An `Add` that has its display goes on, stops, or returns `Ok`. -/
theorem stepMain_owning (howning : s.main.owning) (answers : Answers) :
    (∃ p : Point, p.adding ∧ p.attended ∧ s.stepMain answers = { s with main := p }) ∨
      ∃ info, s.stepMain answers =
        exit { s with alive := true, out := some info } (.added .ok) := by
  cases hmain : s.main with
  | idle | destroyed | stop | join | bringUp =>
      rw [hmain] at howning
      cases howning
  | wait desired before polls =>
      refine Or.inl ?_
      rw [stepMain, hmain]
      dsimp only
      rw [poll]
      split_ifs with hpolls
      · cases answers.names.find? (fun name => name ∉ before) with
        | none => exact ⟨_, rfl, rfl, rfl⟩
        | some device =>
            by_cases hdevice : device = ""
            · exact ⟨.stop (.fail .addFailed), rfl, rfl, if_pos hdevice⟩
            · exact ⟨.choose desired device, rfl, rfl, if_neg hdevice⟩
      · exact ⟨_, rfl, rfl, rfl⟩
  | choose desired device =>
      refine Or.inl ?_
      rw [stepMain, hmain]
      dsimp only
      cases pickBestMode desired answers.modes with
      | none => exact ⟨_, rfl, rfl, rfl⟩
      | some chosen => exact ⟨.apply device chosen, rfl, rfl, rfl⟩
  | apply device chosen =>
      rw [stepMain, hmain]
      dsimp only
      split_ifs with happlied
      · exact Or.inl ⟨_, rfl, rfl, rfl⟩
      · exact Or.inr ⟨_, rfl⟩

theorem Placed.stop (h : s.Placed) {purpose : Purpose} (hmain : s.main = .stop purpose) :
    Placed { s with keepAliveRun := false, main := .join purpose } where
  handle_of_owned := h.handle_of_owned
  owned_of_thread := h.owned_of_thread
  attended h := by cases h
  owning h := by cases h
  bare h := by cases h
  alive halive := by
    obtain ⟨hreturned, hadding, -⟩ := h.alive halive
    rw [hmain] at hadding
    refine ⟨hreturned, ?_, fun hmain => by cases hmain⟩
    cases purpose <;> first | rfl | cases hadding
  out hentered := h.out (by
    rw [hmain]
    cases purpose <;> first | rfl | cases hentered)
  written := h.written

theorem Placed.joined (h : s.Placed) {purpose : Purpose} (hmain : s.main = .join purpose) :
    Placed { s with keepAlive := .absent } :=
  { h with
    owned_of_thread := fun hthread => absurd rfl hthread
    attended := fun hattended => by
      rw [hmain] at hattended
      cases hattended }

theorem Placed.stepMain (h : s.Placed) (answers : Answers) : (s.stepMain answers).Placed := by
  have howning (howning : s.main.owning) : (s.stepMain answers).Placed := by
    obtain ⟨p, -, hattended, heq⟩ | ⟨info, heq⟩ := stepMain_owning howning answers
    · rw [heq]
      exact h.goOn howning hattended
    · rw [heq]
      exact h.exit_ok howning info
  cases hmain : s.main with
  | wait | choose | apply => exact howning (by rw [hmain]; rfl)
  | idle | destroyed =>
      rw [VirtualDisplay.stepMain, hmain]
      exact h
  | stop purpose =>
      rw [VirtualDisplay.stepMain, hmain]
      exact h.stop hmain
  | bringUp desired =>
      rw [VirtualDisplay.stepMain, hmain]
      exact h.bringUp hmain answers
  | join purpose =>
      rw [VirtualDisplay.stepMain, hmain]
      dsimp only
      split_ifs with hlive
      · exact h
      · simpa only [hmain] using (h.joined hmain).resume hmain rfl

theorem Placed.stepKeepAlive (h : s.Placed) : s.stepKeepAlive.Placed := by
  cases hthread : s.keepAlive with
  | absent | finished =>
      rw [VirtualDisplay.stepKeepAlive, hthread]
      exact h
  | checking =>
      have howned : 0 ≤ s.index := h.owned_of_live (by rw [hthread]; rfl)
      rw [VirtualDisplay.stepKeepAlive, hthread]
      exact
        { h with
          owned_of_thread := fun _ => howned
          attended := fun hattended howned => by
            have hrun : s.keepAliveRun = true := (h.attended hattended howned).2
            exact ⟨by simp [hrun, Thread.live], hrun⟩ }
  | updating =>
      have howned : 0 ≤ s.index := h.owned_of_live (by rw [hthread]; rfl)
      rw [VirtualDisplay.stepKeepAlive, hthread]
      exact
        { h with
          owned_of_thread := fun _ => howned
          attended := fun hattended howned => ⟨rfl, (h.attended hattended howned).2⟩ }

/-- A call that finds the object in none. -/
theorem Placed.call (h : s.Placed) (hmain : s.main = .idle) {purpose : Purpose}
    (hpurpose : (Point.stop purpose).adding = false) (out : Option VirtualDisplayInfo)
    (hout : out = s.out ∨ out = none)
    (hentered : (Point.stop purpose).entered → out = none) :
    Placed { s with main := .stop purpose, out := out } where
  handle_of_owned := h.handle_of_owned
  owned_of_thread := h.owned_of_thread
  attended _ := h.attended (by rw [hmain]; rfl)
  owning h := by cases h
  bare h := by cases h
  alive halive := ⟨(h.alive halive).1, by rw [hpurpose]; rfl, fun hmain => by cases hmain⟩
  out := hentered
  written status hstatus hfail := by
    obtain rfl | rfl := hout
    · exact h.written status hstatus hfail
    · rfl

/-- **Every step keeps the invariant**, whatever the driver answers. -/
theorem Placed.step (h : s.Placed) (i : Input) : (s.step i).Placed := by
  cases i with
  | add desired =>
      rw [VirtualDisplay.step]
      split_ifs with hmain
      · exact h.call hmain rfl none (Or.inr rfl) fun _ => rfl
      · exact h
  | remove =>
      rw [VirtualDisplay.step]
      split_ifs with hmain
      · exact h.call hmain rfl s.out (Or.inl rfl) fun hentered => by cases hentered
      · exact h
  | destroy =>
      rw [VirtualDisplay.step]
      split_ifs with hmain
      · exact h.call hmain rfl s.out (Or.inl rfl) fun hentered => by cases hentered
      · exact h
  | main answers => exact h.stepMain answers
  | keepAlive => exact h.stepKeepAlive

end VirtualDisplay

end TetherDisplay.Vdisplay
