import TetherDisplay.Capture.WgcCapture

/-!
# A capture source in any run

`Sound` is what holds of a source between two steps of its threads, and `Sound.step` keeps it.

Two facts carry it.  `capturing_` is off from where `Stop` clears it to where `Start` sets it again
(`OwnerPoint.Quiet`), so that a handler that gets the mutex meanwhile leaves at once and touches
nothing that `Start` writes; where it is on, all that a handler works with is there (`Equipped`).
And `Stop` holds the mutex from its teardown on (`locked`), so that no callback is running when the
history says that the source is closed.

What Windows is asked for is accounted for in the book of the parts: `Start` acquires them one by
one, and may end at any of them (`activated_activate`); the teardown, behind the revocation, gives
back what there is (`stands_teardown`).
-/

namespace TetherDisplay.Capture

open Ledger (Book)

/-- `capturing_` is off. -/
def OwnerPoint.Quiet : OwnerPoint → Prop
  | .stopping .clear _ | .idle | .launching => False
  | .stopping _ _ | .activating _ | .arming => True

/-- The subscription has been revoked. -/
def OwnerPoint.Revoked : OwnerPoint → Prop
  | .stopping .lock _ | .stopping .teardown _ => True
  | _ => False

/-- `Start` has subscribed and not returned. -/
def OwnerPoint.Opening : OwnerPoint → Prop
  | .arming | .launching => True
  | _ => False

namespace WgcCaptureSource

variable {s : WgcCaptureSource} {k : Part}

/-! ## The invariant -/

/-- What a handler works with. -/
def workingParts : List Part := [.d3d, .ctx, .winrtDevice, .item, .pool, .session]

/-- A source that captures has its parts, and somebody to call. -/
structure Equipped (parts : Book Part ℕ) (cb : Bool) : Prop where
  held : ∀ k ∈ workingParts, (parts.held k).isSome
  calls : cb = true

/-- What the history says of the source. -/
structure Seen (log : List Event) (capturing : Bool) (owner : OwnerPoint)
    (inside : Option Inside) (v : View) : Prop where
  run : View.closed.run log = some v
  busy : v = .busy ↔ ∃ f, inside = some (.calling f)
  closed : v = .closed → capturing = false ∧ ¬ owner.Opening
  activating : ∀ target, owner = .activating target → v = .closed

/-- The frames so far, with the next one's number. -/
structure Counted (frameId : UInt64) (fs : List CapturedFrame) : Prop where
  numbered : fs.map CapturedFrame.frameId = (List.range fs.length).map UInt64.ofNat
  count : frameId = UInt64.ofNat fs.length
  sizes : ∀ f ∈ fs, f.encoderTexture = ⟨f.width, f.height⟩

/-- The next frame has the next number. -/
theorem Counted.concat {frameId : UInt64} {fs : List CapturedFrame} (h : Counted frameId fs)
    {f : CapturedFrame} (hid : f.frameId = frameId)
    (hsize : f.encoderTexture = ⟨f.width, f.height⟩) :
    Counted (frameId + 1) (fs ++ [f]) where
  numbered := by
    rw [List.map_append, h.numbered, List.map_singleton, hid, h.count, List.length_append,
      List.length_singleton, List.range_succ, List.map_append, List.map_singleton]
  count := by
    rw [h.count, List.length_append, List.length_singleton, UInt64.ofNat_add]
    rfl
  sizes g hg := by
    rcases List.mem_append.mp hg with hg | hg
    · exact h.sizes g hg
    · obtain rfl := List.mem_singleton.mp hg
      exact hsize

/-- A source that has been closed holds nothing, or the device that could not be wrapped. -/
def AtRest (parts : Book Part ℕ) (log : List Event) : Prop :=
  parts.Stands Part.needs [] ∨
    parts.Stands Part.needs [.ctx, .d3d] ∧ log.getLast? = some (.failed .deviceCreateFailed)

/-- **The source**, between two steps of any of its threads. -/
structure Sound (s : WgcCaptureSource) : Prop where
  orderly : s.parts.Orderly Part.needs
  armed : s.capturing = true → Equipped s.parts s.cb
  arming : s.owner.Opening → Equipped s.parts s.cb
  calling : ∀ f, s.inside = some (.calling f) →
    Equipped s.parts s.cb ∧ (s.held .delivery).isSome
  locked : s.owner.locks = true → s.inside = none
  quiet : s.owner.Quiet → s.capturing = false
  revoked : s.owner.Revoked → s.held .frameArrived = none
  cleared : ∀ target, s.owner = .activating target → s.parts.Stands Part.needs []
  texture : (s.held .delivery).isSome → s.texture = s.deliverySize
  seen : ∃ v, Seen s.log s.capturing s.owner s.inside v
  counted : Counted s.frameId (frames s.log)
  rest : s.owner = .idle → View.closed.run s.log = some .closed → AtRest s.parts s.log

/-- It holds of a new source. -/
theorem sound_new : Sound {} where
  orderly := Book.orderly_empty
  armed h := by cases h
  arming h := h.elim
  calling f h := by cases h
  locked h := by cases h
  quiet h := h.elim
  revoked h := h.elim
  cleared target h := by cases h
  texture h := by cases h
  seen := ⟨.closed, rfl, ⟨fun h => (by cases h), fun ⟨f, h⟩ => (by cases h)⟩,
    fun _ => ⟨rfl, id⟩, fun _ h => (by cases h)⟩
  counted := ⟨rfl, rfl, fun f h => (by cases h)⟩
  rest _ _ := .inl ⟨Book.orderly_empty, fun k => by simp⟩

/-- Parts that are not among those a handler works with do not matter. -/
theorem Equipped.of_held {parts parts' : Book Part ℕ} {cb : Bool} (h : Equipped parts cb)
    (hheld : ∀ k ∈ workingParts, parts'.held k = parts.held k) : Equipped parts' cb where
  held k hk := by
    rw [hheld k hk]
    exact h.held k hk
  calls := h.calls

/-- What is not a frame leaves the numbering as it is. -/
theorem frames_append_of_none {log more : List Event} (h : frames more = []) :
    frames (log ++ more) = frames log := by
  rw [frames, List.filterMap_append, ← frames, ← frames, h, List.append_nil]

theorem frames_concat {log : List Event} {f : CapturedFrame} :
    frames (log ++ [.frame f]) = frames log ++ [f] := List.filterMap_append

/-! ### The owner -/

/-- The owner calls `Stop`, itself or in `Start`. -/
theorem Sound.callStop (h : s.Sound) (next : AfterStop) :
    Sound { s with owner := .stopping .clear next } := by
  obtain ⟨v, hv⟩ := h.seen
  exact { h with
    arming := False.elim
    locked := fun hlocks => by cases hlocks
    quiet := False.elim
    revoked := False.elim
    cleared := fun _ howner => by cases howner
    seen := ⟨v, hv.run, hv.busy, fun hclosed => ⟨(hv.closed hclosed).1, id⟩,
      fun _ howner => by cases howner⟩
    rest := fun howner => by cases howner }

/-- `Stop` clears `capturing`. -/
theorem Sound.clear (h : s.Sound) (next : AfterStop) :
    Sound { s with capturing := false, owner := .stopping .revoke next } := by
  obtain ⟨v, hv⟩ := h.seen
  exact { h with
    armed := fun hon => by cases hon
    arming := False.elim
    locked := fun hlocks => by cases hlocks
    quiet := fun _ => rfl
    revoked := False.elim
    cleared := fun _ howner => by cases howner
    seen := ⟨v, hv.run, hv.busy, fun _ => ⟨rfl, id⟩, fun _ howner => by cases howner⟩
    rest := fun howner => by cases howner }

/-- `Stop` revokes the callback. -/
theorem Sound.revoke (h : s.Sound) {next : AfterStop} (howner : s.owner = .stopping .revoke next) :
    Sound { s.drop .frameArrived with owner := .stopping .lock next } := by
  have hoff := h.quiet (by rw [howner]; trivial)
  have hheld : (s.drop .frameArrived).held = Function.update s.held .frameArrived none :=
    Book.held_drop _ _
  have hkept : ∀ k, k ≠ .frameArrived → (s.drop .frameArrived).held k = s.held k := by
    intro k hk
    rw [hheld, Function.update_of_ne hk]
  have hcleared : s.parts.Cleared Part.needs [] := ⟨h.orderly, fun k hk => by cases hk⟩
  have hdropped := hcleared.drop (k := Part.frameArrived) (by decide)
  obtain ⟨v, hv⟩ := h.seen
  exact { h with
    orderly := hdropped.orderly
    armed := fun hon => by
      rw [show s.capturing = true from hon] at hoff
      cases hoff
    arming := False.elim
    calling := fun f hf => by
      obtain ⟨hequipped, hdelivery⟩ := h.calling f hf
      have hworking : ∀ k ∈ workingParts, k ≠ .frameArrived := by decide
      exact ⟨hequipped.of_held fun k hk => hkept k (hworking k hk),
        (congrArg Option.isSome (hkept .delivery (by decide))).trans hdelivery⟩
    locked := fun hlocks => by cases hlocks
    quiet := fun _ => hoff
    revoked := fun _ => hdropped.held_eq .frameArrived (by decide)
    cleared := fun _ howner => by cases howner
    texture := fun hdelivery => h.texture
      ((congrArg Option.isSome (hkept .delivery (by decide))).symm.trans hdelivery)
    seen := ⟨v, hv.run, hv.busy, fun _ => ⟨hoff, id⟩, fun _ howner => by cases howner⟩
    rest := fun howner => by cases howner }

/-- `Stop` has the lock, once nobody is inside. -/
theorem Sound.lock (h : s.Sound) {next : AfterStop} (howner : s.owner = .stopping .lock next)
    (hfree : s.inside = none) : Sound { s with owner := .stopping .teardown next } := by
  have hoff := h.quiet (by rw [howner]; trivial)
  obtain ⟨v, hv⟩ := h.seen
  exact { h with
    arming := False.elim
    locked := fun _ => hfree
    quiet := fun _ => hoff
    revoked := fun _ => h.revoked (by rw [howner]; trivial)
    cleared := fun _ howner => by cases howner
    seen := ⟨v, hv.run, hv.busy, fun _ => ⟨hoff, id⟩, fun _ howner => by cases howner⟩
    rest := fun howner => by cases howner }

/-- Once revoked, everything is given back. -/
theorem stands_teardown (h : s.parts.Cleared Part.needs [.frameArrived]) :
    s.teardown.parts.Stands Part.needs [] := by
  have hpool := (h.drop (k := Part.session) (by decide)).drop (k := Part.pool) (by decide)
  have hdevice := (hpool.drop (k := Part.item) (by decide)).drop (k := Part.winrtDevice)
    (by decide)
  have hall := ((hdevice.drop (k := Part.delivery) (by decide)).drop (k := Part.ctx)
    (by decide)).drop (k := Part.d3d) (by decide)
  exact hall.stands (by intro k; cases k <;> decide)

/-- The teardown, and what `Stop` returns to. -/
theorem Sound.teardown (h : s.Sound) {next : AfterStop}
    (howner : s.owner = .stopping .teardown next) : (s.teardown.stopped next).Sound := by
  have hfree := h.locked (by rw [howner]; rfl)
  have hoff := h.quiet (by rw [howner]; trivial)
  have hstands : s.teardown.parts.Stands Part.needs [] := by
    refine stands_teardown ⟨h.orderly, fun k hk => ?_⟩
    obtain rfl := List.mem_singleton.mp hk
    exact h.revoked (by rw [howner]; trivial)
  have hnot : ∀ f, s.inside ≠ some (.calling f) := by
    intro f
    rw [hfree]
    rintro ⟨⟩
  obtain ⟨v, hv⟩ := h.seen
  -- no callback is running, so that the history may say that the source is closed
  have hclosed : View.closed.run (s.log ++ [.closed]) = some .closed := by
    rw [View.run_concat hv.run]
    have hbusy : v ≠ .busy := by
      intro hbusy
      obtain ⟨f, hf⟩ := hv.busy.mp hbusy
      exact hnot f hf
    cases v with
    | busy => exact absurd rfl hbusy
    | closed | open_ => rfl
  have hreached : ∀ (owner : OwnerPoint) (more : List Event), frames more = [] →
      View.closed.run (s.log ++ more) = some .closed → ¬ owner.Opening → owner.locks = false →
      ¬ owner.Revoked →
      Sound { s.teardown with owner, log := s.log ++ more } := by
    intro owner more hmore hrun hopening hlocks hrevoked
    exact {
      orderly := hstands.orderly
      armed := fun hon => absurd (hoff.symm.trans hon) Bool.false_ne_true
      arming := fun h => absurd h hopening
      calling := fun f hf => absurd hf (hnot f)
      locked := fun h => absurd (hlocks.symm.trans h) Bool.false_ne_true
      quiet := fun _ => hoff
      revoked := fun h => absurd h hrevoked
      cleared := fun _ _ => hstands
      texture := fun hdelivery =>
        absurd ((hstands.held_iff _).mp hdelivery) List.not_mem_nil
      seen := ⟨.closed, hrun, ⟨fun h => (by cases h), fun ⟨f, hf⟩ => absurd hf (hnot f)⟩,
        fun _ => ⟨hoff, hopening⟩, fun _ _ => rfl⟩
      counted := by
        show Counted s.frameId (frames (s.log ++ more))
        rw [frames_append_of_none hmore]
        exact h.counted
      rest := fun _ _ => .inl hstands }
  cases next with
  | stop =>
      refine hreached .idle [.closed, .stopped] rfl ?_ id rfl id
      rw [show s.log ++ [.closed, .stopped] = (s.log ++ [.closed]) ++ [.stopped] by simp,
        View.run_concat hclosed]
      rfl
  | start target => exact hreached (.activating target) [.closed] rfl hclosed id rfl id
  | fail =>
      refine hreached .idle [.closed, .failed .startFailed] rfl ?_ id rfl id
      rw [show s.log ++ [.closed, .failed .startFailed] =
          (s.log ++ [.closed]) ++ [.failed .startFailed] by simp, View.run_concat hclosed]
      rfl

/-- `Start` sets `capturing`. -/
theorem Sound.arm (h : s.Sound) (howner : s.owner = .arming) :
    Sound { s with capturing := true, owner := .launching } := by
  have hequipped := h.arming (by rw [howner]; trivial)
  obtain ⟨v, hv⟩ := h.seen
  have hopen : v ≠ .closed := fun hclosed => (hv.closed hclosed).2 (by rw [howner]; trivial)
  exact { h with
    armed := fun _ => hequipped
    arming := fun _ => hequipped
    locked := fun hlocks => by cases hlocks
    quiet := False.elim
    revoked := False.elim
    cleared := fun _ howner => by cases howner
    seen := ⟨v, hv.run, hv.busy, fun hclosed => absurd hclosed hopen,
      fun _ howner => by cases howner⟩
    rest := fun howner => by cases howner }

/-- A step of the owner keeps it. -/
theorem Sound.stepOwner (h : s.Sound) : s.stepOwner.Sound := by
  unfold WgcCaptureSource.stepOwner
  cases howner : s.owner with
  | stopping p next =>
      cases p with
      | clear => exact h.clear next
      | revoke => exact h.revoke howner
      | lock =>
          dsimp only
          split
          · next hfree => exact h.lock howner hfree
          · exact h
      | teardown => exact h.teardown howner
  | arming => exact h.arm howner
  | idle | activating target | launching => exact h

/-! ### `Start` -/

/-- What the threads and the history are about. -/
def threads (s : WgcCaptureSource) :
    Bool × UInt64 × OwnerPoint × List ℕ × Option Inside × List Event :=
  (s.capturing, s.frameId, s.owner, s.waiting, s.inside, s.log)

/-- What `Start` leaves when it has come so far. -/
structure Activated (threads : Bool × UInt64 × OwnerPoint × List ℕ × Option Inside × List Event)
    (outcome : Outcome) (s : WgcCaptureSource) : Prop where
  orderly : s.parts.Orderly Part.needs
  equipped : outcome = .goesOn → Equipped s.parts s.cb
  texture : (s.held .delivery).isSome → s.texture = s.deliverySize
  rest : ∀ status, outcome = .returns status → s.parts.Stands Part.needs [] ∨
    s.parts.Stands Part.needs [.ctx, .d3d] ∧ status = .deviceCreateFailed
  same : s.threads = threads

/-- `Start` ends early, with no delivery texture or one that is of the size that is noted. -/
theorem activated_early {ks : List Part} (h : s.parts.Stands Part.needs ks) {outcome : Outcome}
    (hends : outcome ≠ .goesOn) (htexture : .delivery ∈ ks → s.texture = s.deliverySize)
    (hrest : ∀ status, outcome = .returns status →
      ks = [] ∨ ks = [.ctx, .d3d] ∧ status = .deviceCreateFailed) :
    s.Activated s.threads outcome where
  orderly := h.orderly
  equipped hgoes := absurd hgoes hends
  rest status hreturns := by
    rcases hrest status hreturns with rfl | ⟨rfl, hstatus⟩
    · exact .inl h
    · exact .inr ⟨h, hstatus⟩
  texture hdelivery := htexture ((h.held_iff _).mp hdelivery)
  same := rfl

/-- The delivery texture is there after it has been asked for, if it could be made. -/
theorem stands_ensure {ks : List Part} (h : s.parts.Stands Part.needs ks)
    (hfree : .delivery ∉ ks) (hd3d : .d3d ∈ ks) (size : Size) (created : Bool) :
    (s.ensureDeliveryTexture size created).parts.Stands Part.needs
      (if created then .delivery :: ks else ks) := by
  have hnone : s.parts.held .delivery = none := by
    rw [← Option.not_isSome_iff_eq_none, h.held_iff]
    exact hfree
  have hdrop : s.drop .delivery = s := by
    unfold drop
    rw [Book.drop_of_none hnone]
  unfold ensureDeliveryTexture
  rw [hdrop]
  have hused := h.use hd3d
  cases created with
  | true =>
      refine hused.acquire hfree (fun j hj => ?_) 0
      obtain rfl := List.mem_singleton.mp hj
      exact hd3d
  | false => exact hused

/-- The end of `ActivateCapture`. -/
theorem activated_subscribe {ks : List Part} (h : s.parts.Stands Part.needs ks)
    (hheld : ∀ k ∈ [Part.item, .winrtDevice, .ctx, .d3d], k ∈ ks)
    (hfree : ∀ k ∈ [Part.pool, .session, .frameArrived], k ∉ ks)
    (htexture : .delivery ∈ ks → s.texture = s.deliverySize) (a : StartAnswers) :
    (s.subscribe a).2.Activated s.threads (s.subscribe a).1 := by
  unfold subscribe
  cases a.pool with
  | none => exact activated_early h (by rintro ⟨⟩) htexture (by rintro _ ⟨⟩)
  | some pool =>
      have hin : ∀ (front : List Part) {k : Part}, k ∈ [Part.item, .winrtDevice, .ctx, .d3d] →
          k ∈ front ++ ks := fun _ _ hk => List.mem_append_right _ (hheld _ hk)
      have hpool := h.acquire (hfree .pool (by decide)) (fun j hj => by
        obtain rfl := List.mem_singleton.mp hj
        exact hheld _ (by decide)) pool
      have hsession := hpool.acquire (k := Part.session)
        (by simp [hfree .session (by decide)]) (fun j hj => by
          simp only [Part.needs, List.mem_cons, List.not_mem_nil, or_false] at hj
          rcases hj with rfl | rfl
          · exact List.mem_cons_self
          · exact hin [.pool] (by decide)) 0
      have hsubscribed := hsession.acquire (k := Part.frameArrived)
        (by simp [hfree .frameArrived (by decide)]) (fun j hj => by
          obtain rfl := List.mem_singleton.mp hj
          exact List.mem_cons_of_mem _ List.mem_cons_self) 0
      dsimp only
      split
      · exact activated_early (s := s.acquire .pool pool) hpool (by rintro ⟨⟩)
          (fun hmem => htexture (by simpa using hmem)) (by rintro _ ⟨⟩)
      split
      · exact activated_early (s := { (s.acquire .pool pool).acquire .session 0 with cb := true })
          hsession (by rintro ⟨⟩) (fun hmem => htexture (by simpa using hmem)) (by rintro _ ⟨⟩)
      · exact {
          orderly := hsubscribed.orderly
          equipped := fun _ => by
            refine ⟨fun k hk => (hsubscribed.held_iff k).mpr ?_, rfl⟩
            have hwork : k ∈ [Part.frameArrived, .session, .pool] ∨
                k ∈ [Part.item, .winrtDevice, .ctx, .d3d] := by
              revert hk
              cases k <;> decide
            rcases hwork with hwork | hwork
            · exact List.mem_append_left ks hwork
            · exact hin [.frameArrived, .session, .pool] hwork
          texture := fun hdelivery => htexture (by
            simpa using (hsubscribed.held_iff _).mp hdelivery)
          rest := by rintro _ ⟨⟩
          same := rfl }

/-- The whole of `ActivateCapture`. -/
theorem activated_createDevice (h : s.parts.Stands Part.needs []) (a : StartAnswers) :
    (s.createDevice a).2.Activated s.threads (s.createDevice a).1 := by
  unfold createDevice
  cases a.d3d with
  | none =>
      exact activated_early h (by rintro ⟨⟩) (fun hmem => absurd hmem (by decide))
        fun _ _ => .inl rfl
  | some d3d =>
      have hdevice := (h.acquire (k := Part.d3d) (by decide) (by decide) d3d).acquire
        (k := Part.ctx) (by decide) (by decide) 0
      dsimp only
      split
      · refine activated_early (s := (s.acquire .d3d d3d).acquire .ctx 0) hdevice (by rintro ⟨⟩)
          (fun hmem => absurd hmem (by decide)) fun status hreturns => .inr ⟨rfl, ?_⟩
        cases hreturns
        rfl
      · have hwrapped := hdevice.acquire (k := Part.winrtDevice) (by decide) (by decide) 0
        unfold createItem
        split
        · exact activated_early
            (s := ((s.acquire .d3d d3d).acquire .ctx 0).acquire .winrtDevice 0) hwrapped
            (by rintro ⟨⟩) (fun hmem => absurd hmem (by decide)) (by rintro _ ⟨⟩)
        have hitem := hwrapped.acquire (k := Part.item) (by decide) (by decide) 0
        dsimp only
        cases a.size with
        | none =>
            exact activated_early
              (s := (((s.acquire .d3d d3d).acquire .ctx 0).acquire .winrtDevice 0).acquire .item 0)
              hitem (by rintro ⟨⟩) (fun hmem => absurd hmem (by decide)) (by rintro _ ⟨⟩)
        | some size =>
            have hseed := stands_ensure
              (s := (((s.acquire .d3d d3d).acquire .ctx 0).acquire .winrtDevice 0).acquire .item 0)
              hitem (by decide) (by decide) size a.created
            cases hcreated : a.created with
            | true =>
                rw [hcreated] at hseed
                exact activated_subscribe hseed (by decide) (by decide) (fun _ => rfl) a
            | false =>
                rw [hcreated] at hseed
                exact activated_subscribe hseed (by decide) (by decide)
                  (fun hmem => absurd hmem (by decide)) a

/-- **What `Start` leaves**, whatever fails. -/
theorem activated_activate (h : s.parts.Stands Part.needs []) (target : String)
    (a : StartAnswers) : (s.activate target a).2.Activated s.threads (s.activate target a).1 := by
  have hearly : ∀ (t : WgcCaptureSource) (outcome : Outcome), t.parts = s.parts →
      t.threads = s.threads → outcome ≠ .goesOn → t.Activated s.threads outcome := by
    intro t outcome hparts hsame hends
    have hstands : t.parts.Stands Part.needs [] := hparts ▸ h
    rw [← hsame]
    exact activated_early hstands hends (fun hmem => absurd hmem (by decide)) fun _ _ => .inl rfl
  unfold activate
  split
  · exact hearly _ _ rfl rfl (by rintro ⟨⟩)
  · exact hearly _ _ rfl rfl (by rintro ⟨⟩)
  cases a.adapters with
  | none => exact hearly _ _ rfl rfl (by rintro ⟨⟩)
  | some found =>
      dsimp only
      cases selectEncoderAdapter ((enumAdapters found).map AdapterEntry.info) with
      | none => exact hearly _ _ rfl rfl (by rintro ⟨⟩)
      | some encoder =>
          dsimp only
          cases findMonitor (enumAdapters found) target with
          | none => exact hearly _ _ rfl rfl (by rintro ⟨⟩)
          | some found => exact activated_createDevice (s := { s with
              encoderLuid := encoder.id
              captureLuid := found.2
              crossedAdapters := needsCrossAdapterCopy found.2 encoder.id }) h a

/-- `Start` goes on from what it leaves, while no callback is running. -/
theorem Sound.activated (h : s.Sound) {target : String} (howner : s.owner = .activating target)
    {t : WgcCaptureSource} {outcome : Outcome} (hact : t.Activated s.threads outcome)
    (owner : OwnerPoint) (more : List Event) {v : View} (hmore : frames more = [])
    (hrun : View.closed.run more = some v) (hbusy : v ≠ .busy)
    (hopening : owner.Opening → outcome = .goesOn ∧ v ≠ .closed) (hlocks : owner.locks = false)
    (hrevoked : ¬ owner.Revoked) (hthen : ∀ target, owner ≠ .activating target)
    (hidle : owner = .idle → ∃ status, outcome = .returns status ∧ more = [.failed status]) :
    Sound { t with owner, log := t.log ++ more } := by
  obtain ⟨u, hu⟩ := h.seen
  have hclosed := hu.activating target howner
  subst hclosed
  have hsame := hact.same
  simp only [threads, Prod.mk.injEq] at hsame
  obtain ⟨hcapturing, hframeId, -, -, hinside, hlog⟩ := hsame
  have hoff : t.capturing = false := hcapturing.trans (h.quiet (by rw [howner]; trivial))
  have hnot : ∀ f, t.inside ≠ some (.calling f) := by
    intro f hf
    have hbusy := hu.busy.mpr ⟨f, hinside.symm.trans hf⟩
    cases hbusy
  exact {
    orderly := hact.orderly
    armed := fun hon => absurd (hoff.symm.trans hon) Bool.false_ne_true
    arming := fun hopens => hact.equipped (hopening hopens).1
    calling := fun f hf => absurd hf (hnot f)
    locked := fun h => absurd (hlocks.symm.trans h) Bool.false_ne_true
    quiet := fun _ => hoff
    revoked := fun h => absurd h hrevoked
    cleared := fun target h => absurd h (hthen target)
    texture := hact.texture
    seen := by
      refine ⟨v, ?_, ⟨fun h => absurd h hbusy, fun ⟨f, hf⟩ => absurd hf (hnot f)⟩,
        fun hv => ⟨hoff, fun hopens => (hopening hopens).2 hv⟩,
        fun target h => absurd h (hthen target)⟩
      show View.closed.run (t.log ++ more) = some v
      rw [View.run_append, hlog, hu.run]
      exact hrun
    counted := by
      show Counted t.frameId (frames (t.log ++ more))
      rw [frames_append_of_none hmore, hframeId, hlog]
      exact h.counted
    rest := fun hidles _ => by
      obtain ⟨status, houtcome, rfl⟩ := hidle hidles
      rcases hact.rest status houtcome with hstands | ⟨hstands, rfl⟩
      · exact .inl hstands
      · exact .inr ⟨hstands, List.getLast?_concat⟩ }

/-- An activation keeps it, whatever is answered. -/
theorem Sound.stepActivate (h : s.Sound) (a : StartAnswers) : (s.stepActivate a).Sound := by
  unfold WgcCaptureSource.stepActivate
  cases howner : s.owner with
  | activating target =>
      have hact := activated_activate (h.cleared target howner) target a
      dsimp only
      revert hact
      generalize s.activate target a = answer
      intro hact
      obtain ⟨outcome, t⟩ := answer
      cases outcome with
      | returns status =>
          exact h.activated howner hact .idle [.failed status] rfl rfl
            (by rintro ⟨⟩) False.elim rfl id (by rintro _ ⟨⟩) fun _ => ⟨status, rfl, rfl⟩
      | throws =>
          have hstop := h.activated howner hact (.stopping .clear .fail) [] rfl
            rfl (by rintro ⟨⟩) False.elim rfl id (by rintro _ ⟨⟩) (by rintro ⟨⟩)
          rwa [List.append_nil] at hstop
      | goesOn =>
          exact h.activated howner hact .arming [.opened] rfl rfl
            (by rintro ⟨⟩) (fun _ => ⟨rfl, by rintro ⟨⟩⟩) rfl id (by rintro _ ⟨⟩)
            (by rintro ⟨⟩)
  | idle | stopping p next | arming | launching => exact h

/-- What is held may be used. -/
theorem Sound.used (h : s.Sound) (hheld : (s.held k).isSome) : (s.use k).Sound :=
  { h with
    orderly := h.orderly.use hheld
    armed := fun hon => (h.armed hon).of_held fun _ _ => rfl
    arming := fun hopening => (h.arming hopening).of_held fun _ _ => rfl
    calling := fun f hf => ⟨(h.calling f hf).1.of_held fun _ _ => rfl, (h.calling f hf).2⟩
    cleared := fun target howner =>
      absurd (((h.cleared target howner).held_iff k).mp hheld) List.not_mem_nil
    rest := fun hidle hclosed => by
      rcases h.rest hidle hclosed with hstands | ⟨hstands, hlast⟩
      · exact .inl (hstands.use ((hstands.held_iff k).mp hheld))
      · exact .inr ⟨hstands.use ((hstands.held_iff k).mp hheld), hlast⟩ }

/-- The last step of `Start` keeps it. -/
theorem Sound.stepLaunch (h : s.Sound) (ok : Bool) : (s.stepLaunch ok).Sound := by
  unfold WgcCaptureSource.stepLaunch
  cases howner : s.owner with
  | launching =>
      have hopening : s.owner.Opening := by rw [howner]; trivial
      have hequipped := h.arming hopening
      have hused := h.used (hequipped.held .session (by decide))
      dsimp only
      split
      · obtain ⟨v, hv⟩ := hused.seen
        have hopen : v ≠ .closed := fun hclosed => (hv.closed hclosed).2 hopening
        have hrun : View.closed.run ((s.use .session).log ++ [.started]) = some v := by
          rw [View.run_concat hv.run]
          cases v with
          | closed => exact absurd rfl hopen
          | open_ | busy => rfl
        exact { hused with
          arming := False.elim
          locked := fun hlocks => by cases hlocks
          quiet := False.elim
          revoked := False.elim
          cleared := fun _ howner => by cases howner
          seen := ⟨v, hrun, hv.busy, fun hclosed => absurd hclosed hopen,
            fun _ howner => by cases howner⟩
          counted := by
            show Counted s.frameId (frames (s.log ++ [.started]))
            rw [frames_append_of_none rfl]
            exact h.counted
          rest := fun _ hclosed => absurd (Option.some.inj (hrun.symm.trans hclosed)) hopen }
      · exact hused.callStop .fail
  | idle | stopping p next | activating target | arming => exact h

/-! ### The handlers -/

theorem Sound.stepRaise (h : s.Sound) : s.stepRaise.Sound := by
  unfold WgcCaptureSource.stepRaise
  split
  · exact { h with }
  · exact h

/-- A callback that gets the lock keeps it. -/
theorem Sound.stepEnter (h : s.Sound) (i : ℕ) : (s.stepEnter i).Sound := by
  unfold WgcCaptureSource.stepEnter
  cases s.waiting[i]? with
  | none => exact h
  | some sender =>
      dsimp only
      split
      · next hfree =>
          obtain ⟨v, hv⟩ := h.seen
          exact { h with
            calling := fun f hf => by cases hf
            locked := fun hlocks => absurd (hfree.2.symm.trans hlocks) Bool.false_ne_true
            seen := by
              refine ⟨v, hv.run, ⟨fun hbusy => ?_, fun ⟨f, hf⟩ => (by cases hf)⟩, hv.closed,
                hv.activating⟩
              obtain ⟨f, hf⟩ := hv.busy.mp hbusy
              cases hfree.1.symm.trans hf }
      · exact h

/-- The callback returns. -/
theorem Sound.stepReturn (h : s.Sound) : s.stepReturn.Sound := by
  unfold WgcCaptureSource.stepReturn
  split
  · next f hinside =>
      obtain ⟨v, hv⟩ := h.seen
      have hbusy := hv.busy.mpr ⟨f, hinside⟩
      subst hbusy
      exact { h with
        calling := fun f hf => by cases hf
        locked := fun _ => rfl
        seen := by
          refine ⟨.open_, ?_, ⟨fun h => (by cases h), fun ⟨f, hf⟩ => (by cases hf)⟩,
            fun h => (by cases h), fun target howner => (by cases hv.activating target howner)⟩
          exact View.run_concat hv.run
        counted := by
          show Counted s.frameId (frames (s.log ++ [.returned]))
          rw [frames_append_of_none rfl]
          exact h.counted
        rest := fun _ hclosed => by
          rw [View.run_concat hv.run] at hclosed
          cases hclosed }
  · exact h

/-- The handler leaves before the callback. -/
theorem Sound.leave (h : s.Sound) {sender : ℕ} (hinside : s.inside = some (.entered sender)) :
    s.leave.Sound := by
  obtain ⟨v, hv⟩ := h.seen
  exact { h with
    calling := fun f hf => by cases hf
    locked := fun _ => rfl
    seen := by
      refine ⟨v, hv.run, ⟨fun hbusy => ?_, fun ⟨f, hf⟩ => (by cases hf)⟩, hv.closed, hv.activating⟩
      obtain ⟨f, hf⟩ := hv.busy.mp hbusy
      cases hinside.symm.trans hf }

@[simp] theorem held_ensure (size : Size) (created : Bool) :
    (s.ensureDeliveryTexture size created).held =
      Function.update s.held .delivery (if created then some 0 else none) := by
  unfold ensureDeliveryTexture
  cases created with
  | true =>
      show ((((s.parts.drop .delivery).use .d3d).acquire .delivery 0).held) = _
      rw [Book.held_acquire, Book.held_use, Book.held_drop, Function.update_idem]
      rfl
  | false => exact Book.held_drop _ _

/-- The parts stay in order. -/
theorem orderly_ensure (h : s.parts.Orderly Part.needs) (hd3d : (s.held .d3d).isSome)
    (size : Size) (created : Bool) :
    (s.ensureDeliveryTexture size created).parts.Orderly Part.needs := by
  have hdropped : (s.parts.drop .delivery).Orderly Part.needs :=
    h.drop fun j hj => by cases j <;> simp [Part.needs] at hj
  have hheld : (s.parts.drop .delivery).held .d3d = s.held .d3d := by
    rw [Book.held_drop, Function.update_of_ne (by decide)]
    rfl
  have hstill : ((s.parts.drop .delivery).held .d3d).isSome := by rwa [hheld]
  have hused := hdropped.use hstill
  unfold ensureDeliveryTexture
  cases created with
  | true =>
      refine hused.acquire ?_ (fun j hj => ?_) 0
      · rw [Book.held_use, Book.held_drop, Function.update_self]
      · obtain rfl := List.mem_singleton.mp hj
        exact hstill
  | false => exact hused

/-- The handler makes the texture anew. -/
theorem Sound.ensure (h : s.Sound) {sender : ℕ} (hinside : s.inside = some (.entered sender))
    (hon : s.capturing = true) (size : Size) (created : Bool) :
    (s.ensureDeliveryTexture size created).Sound := by
  have hequipped := h.armed hon
  have hkept : ∀ k, k ≠ .delivery → (s.ensureDeliveryTexture size created).held k = s.held k := by
    intro k hk
    rw [held_ensure, Function.update_of_ne hk]
  have hworking : ∀ k ∈ workingParts, k ≠ .delivery := by decide
  have horderly := orderly_ensure h.orderly (hequipped.held .d3d (by decide)) size created
  have hthreads : (s.ensureDeliveryTexture size created).threads = s.threads := by
    unfold ensureDeliveryTexture
    cases created <;> rfl
  have hcb : (s.ensureDeliveryTexture size created).cb = s.cb := by
    unfold ensureDeliveryTexture
    cases created <;> rfl
  have htexture : ((s.ensureDeliveryTexture size created).held .delivery).isSome →
      (s.ensureDeliveryTexture size created).texture =
        (s.ensureDeliveryTexture size created).deliverySize := by
    rw [held_ensure, Function.update_self]
    unfold ensureDeliveryTexture
    cases created with
    | true => exact fun _ => rfl
    | false => rintro ⟨⟩
  generalize s.ensureDeliveryTexture size created = t at hkept horderly hthreads hcb htexture
  simp only [threads, Prod.mk.injEq] at hthreads
  obtain ⟨hcapturing, hframeId, howner, -, hinside', hlog⟩ := hthreads
  have hequipped' : Equipped t.parts t.cb := by
    rw [hcb]
    exact hequipped.of_held fun k hk => hkept k (hworking k hk)
  exact {
    orderly := horderly
    armed := fun _ => hequipped'
    arming := fun _ => hequipped'
    calling := fun f hf => by
      cases hinside.symm.trans (hinside'.symm.trans hf)
    locked := fun hlocks => by
      rw [hinside']
      exact h.locked (howner ▸ hlocks)
    quiet := fun hquiet => by
      rw [hcapturing]
      exact h.quiet (howner ▸ hquiet)
    revoked := fun hrevoked => by
      rw [hkept _ (by decide)]
      exact h.revoked (howner ▸ hrevoked)
    cleared := fun target hactivating => by
      have hoff := h.quiet (by rw [← howner, hactivating]; trivial)
      cases hon.symm.trans hoff
    texture := htexture
    seen := by
      rw [hlog, hcapturing, howner, hinside']
      exact h.seen
    counted := by
      rw [hframeId, hlog]
      exact h.counted
    rest := fun _ hclosed => by
      obtain ⟨v, hv⟩ := h.seen
      rw [hlog, hv.run] at hclosed
      cases hon.symm.trans (hv.closed (Option.some.inj hclosed)).1 }

/-- **The texture has the frame's size** behind the resize, if there is one. -/
theorem Sound.resize (h : s.Sound) {sender : ℕ} (hinside : s.inside = some (.entered sender))
    (hon : s.capturing = true) (a : Arrival) :
    (s.resize a).Sound ∧ (s.resize a).capturing = true ∧
      (s.resize a).inside = some (.entered sender) ∧
      (((s.resize a).held .delivery).isSome → (s.resize a).texture = a.content) := by
  unfold WgcCaptureSource.resize
  split
  · have hensured := h.ensure hinside hon a.content a.created
    have hthreads : (s.ensureDeliveryTexture a.content a.created).threads = s.threads := by
      unfold ensureDeliveryTexture
      cases a.created <;> rfl
    have htexture : ((s.ensureDeliveryTexture a.content a.created).held .delivery).isSome →
        (s.ensureDeliveryTexture a.content a.created).texture = a.content := by
      rw [held_ensure, Function.update_self]
      unfold ensureDeliveryTexture
      cases a.created with
      | true => exact fun _ => rfl
      | false => rintro ⟨⟩
    simp only [threads, Prod.mk.injEq] at hthreads
    have hon' := hthreads.1.trans hon
    have hequipped := hensured.armed hon'
    refine ⟨?_, hon', hthreads.2.2.2.2.1.trans hinside, htexture⟩
    have hdevice := hensured.used (hequipped.held .winrtDevice (by decide))
    exact hdevice.used ((hdevice.armed hon').held .pool (by decide))
  · next hsame =>
      refine ⟨h, hon, hinside, fun hheld => ?_⟩
      rw [h.texture hheld]
      exact (not_not.mp hsame).symm

/-- **The handler under the mutex**. -/
theorem Sound.onFrame (h : s.Sound) {sender : ℕ} (hinside : s.inside = some (.entered sender))
    (a : Arrival) : (s.onFrame sender a).Sound := by
  unfold WgcCaptureSource.onFrame
  split
  · exact h.leave hinside
  next hon =>
  have hon : s.capturing = true := by simpa using hon
  split
  · exact h.leave hinside
  obtain ⟨hresized, hon', hinside', htexture⟩ := h.resize hinside hon a
  dsimp only
  generalize s.resize a = t at hresized hon' hinside' htexture
  split
  · exact hresized.leave hinside'
  next hnone =>
  have hdelivery : (t.held .delivery).isSome := by
    simpa [Option.isSome_iff_ne_none] using hnone
  have hequipped := hresized.armed hon'
  have hctx := hresized.used (hequipped.held .ctx (by decide))
  have hused := hctx.used (k := .delivery) hdelivery
  split
  · obtain ⟨v, hv⟩ := hused.seen
    -- the source is open, and no callback is running: this is the handler that has the mutex
    have hopen : v = .open_ := by
      cases v with
      | closed => cases hon'.symm.trans (hv.closed rfl).1
      | busy =>
          obtain ⟨f, hf⟩ := hv.busy.mp rfl
          cases hinside'.symm.trans hf
      | open_ => rfl
    subst hopen
    exact { hused with
      calling := fun f hf => ⟨hequipped.of_held fun _ _ => rfl, hdelivery⟩
      locked := fun hlocks => by
        have hfree := hused.locked hlocks
        cases hinside'.symm.trans hfree
      seen := by
        refine ⟨.busy, ?_, ⟨fun _ => ⟨_, rfl⟩, fun _ => rfl⟩, fun h => (by cases h),
          fun target howner => (by cases hv.activating target howner)⟩
        exact View.run_concat hv.run
      counted := by
        show Counted (t.frameId + 1) (frames (t.log ++ [.frame _]))
        rw [frames_concat]
        exact hresized.counted.concat rfl (htexture hdelivery)
      rest := fun _ hclosed => by
        rw [View.run_concat hv.run] at hclosed
        cases hclosed }
  · next hcalls => exact absurd hequipped.calls hcalls

/-- A callback that handles a frame keeps it. -/
theorem Sound.stepHandle (h : s.Sound) (a : Arrival) : (s.stepHandle a).Sound := by
  unfold WgcCaptureSource.stepHandle
  split
  · next sender hinside => exact h.onFrame hinside a
  · exact h

/-- **Any step of any thread**. -/
theorem Sound.step (h : s.Sound) (a : Act) : (s.step a).Sound := by
  cases a with
  | start target =>
      unfold WgcCaptureSource.step
      dsimp only
      split
      · exact h.callStop _
      · exact h
  | stop =>
      unfold WgcCaptureSource.step
      dsimp only
      split
      · exact h.callStop _
      · exact h
  | owner => exact h.stepOwner
  | activate a => exact h.stepActivate a
  | launch ok => exact h.stepLaunch ok
  | raise => exact h.stepRaise
  | enter i => exact h.stepEnter i
  | handle a => exact h.stepHandle a
  | return_ => exact h.stepReturn

/-- **It holds in all states of a run.** -/
theorem sound_after (acts : List Act) : (after acts).Sound :=
  Runs.exec_preserves (P := Sound) (fun _ a h => h.step a) sound_new acts

/-! ## What a source does in any run -/

/-- **The promise is kept**, by any number of handlers and in any order of the steps.  The frames
are numbered without a gap from the first on, also over a `Stop` and a `Start`, and each comes with
a texture of its own size. -/
theorem promise_kept (acts : List Act) :
    (View.closed.run (after acts).log).isSome ∧
      (frames (after acts).log).map CapturedFrame.frameId =
        (List.range (frames (after acts).log).length).map UInt64.ofNat ∧
      ∀ f ∈ frames (after acts).log, f.encoderTexture = ⟨f.width, f.height⟩ := by
  have h := sound_after acts
  obtain ⟨v, hv⟩ := h.seen
  exact ⟨by rw [hv.run]; rfl, h.counted.numbered, h.counted.sizes⟩

/-- **What the source holds of Windows** is made, used and given back in order, so that nothing is
used after it is gone or lost.  While a callback runs the device and the texture are there; a source
at rest that is closed has given everything back, but for the device after a `Start` that could not
make or wrap it. -/
theorem parts_custody (acts : List Act) :
    let s := after acts
    Ledger.run Part.needs (fun _ => none) s.parts.log = some s.held ∧
      (View.closed.run s.log = some .busy → s.getDevice.isSome ∧ (s.held .delivery).isSome) ∧
      (s.owner = .idle → View.closed.run s.log = some .closed →
        s.log.getLast? ≠ some (.failed .deviceCreateFailed) →
          ∀ k, Ledger.acquisitions k s.parts.log = Ledger.releases k s.parts.log) := by
  have h := sound_after acts
  dsimp only
  generalize after acts = s at h
  refine ⟨h.orderly.run_log, fun hbusy => ?_, fun hidle hclosed hlast => ?_⟩
  · obtain ⟨v, hv⟩ := h.seen
    rw [hv.run] at hbusy
    obtain ⟨f, hf⟩ := hv.busy.mp (Option.some.inj hbusy)
    obtain ⟨hequipped, hdelivery⟩ := h.calling f hf
    exact ⟨hequipped.held .d3d (by decide), hdelivery⟩
  · rcases h.rest hidle hclosed with hstands | ⟨-, hfailed⟩
    · exact hstands.all_released
    · exact absurd hfailed hlast

/-! ### A texture that could not be made -/

/-- The handler of a frame of the size that is noted does not make the texture. -/
theorem resize_same {a : Arrival} (h : a.content = s.deliverySize) : s.resize a = s := by
  rw [resize, if_neg (not_not.mpr h)]

/-- When a frame of the pool reaches the callback. -/
theorem onFrame_delivers (h : s.Sound) {sender : ℕ} (hinside : s.inside = some (.entered sender))
    (hon : s.capturing = true) (hpool : s.held .pool = some sender) {a : Arrival}
    (hframe : a.frame = true) (hsurface : a.surface = true) :
    (∃ f, frames (s.step (.handle a)).log = frames s.log ++ [f]) ↔
      if a.content = s.deliverySize then (s.held .delivery).isSome = true
      else a.created = true := by
  obtain ⟨hresized, hon', -, -⟩ := h.resize hinside hon a
  have hcb := (hresized.armed hon').calls
  have hdelivery : ((s.resize a).held .delivery).isSome =
      if a.content = s.deliverySize then (s.held .delivery).isSome else a.created := by
    unfold WgcCaptureSource.resize
    split
    · show ((s.ensureDeliveryTexture a.content a.created).held .delivery).isSome = _
      rw [held_ensure, Function.update_self]
      cases a.created <;> rfl
    · next hsame => rw [if_pos (not_not.mp hsame)]
  have hlog : (s.resize a).log = s.log := by
    unfold WgcCaptureSource.resize
    split
    · unfold ensureDeliveryTexture
      cases a.created <;> rfl
    · rfl
  have hgoes : ¬ (s.held .pool ≠ some sender ∨ (!a.frame) = true ∨ (!a.surface) = true) := by
    simp [hpool, hframe, hsurface]
  have hstep : (s.step (.handle a)).log =
      if ((s.resize a).held .delivery).isNone then s.log
      else s.log ++ [.frame
        { encoderTexture := (s.resize a).texture
          width := a.content.width
          height := a.content.height
          frameId := (s.resize a).frameId
          timestamp100ns := a.timestamp
          crossedAdapters := (s.resize a).crossedAdapters }] := by
    simp only [WgcCaptureSource.step, WgcCaptureSource.stepHandle, hinside]
    unfold WgcCaptureSource.onFrame
    rw [if_neg (by simp [hon]), if_neg hgoes]
    dsimp only
    split
    · exact hlog
    · rw [if_pos (show ((((s.resize a).use .ctx).use .delivery)).cb = true from hcb)]
      show (s.resize a).log ++ _ = _
      rw [hlog]
      rfl
  have hiff : (∃ f, frames (s.step (.handle a)).log = frames s.log ++ [f]) ↔
      ((s.resize a).held .delivery).isSome = true := by
    rw [hstep]
    cases (s.resize a).held .delivery with
    | none => simp
    | some i => exact ⟨fun _ => rfl, fun _ => ⟨_, frames_concat⟩⟩
  rw [hiff, hdelivery]
  split <;> rfl

/-- The steps in which the display has a size and keeps it. -/
def Act.Keeps (size : Size) : Act → Prop
  | .handle a => a.content = size
  | .activate _ => False
  | _ => True

/-- There is no texture, and the size that is noted is the display's. -/
structure Starved (size : Size) (s : WgcCaptureSource) : Prop where
  gone : s.held .delivery = none
  noted : s.deliverySize = size ∨ s.capturing = false ∧ ¬ s.owner.Opening

variable {size : Size}

/-- Whatever the owner does, a source without a texture delivers nothing. -/
theorem Starved.stepOwner (h : s.Starved size) (hsound : s.Sound) :
    s.stepOwner.Starved size ∧ frames s.stepOwner.log = frames s.log := by
  unfold WgcCaptureSource.stepOwner
  cases howner : s.owner with
  | stopping p next =>
      cases p with
      | clear => exact ⟨⟨h.gone, h.noted.imp_right fun hoff => ⟨rfl, id⟩⟩, rfl⟩
      | revoke =>
          refine ⟨⟨?_, h.noted.imp_right fun hoff => ⟨hoff.1, id⟩⟩, rfl⟩
          show (s.parts.drop .frameArrived).held .delivery = none
          rw [Book.held_drop, Function.update_of_ne (by decide)]
          exact h.gone
      | lock =>
          dsimp only
          split
          · exact ⟨⟨h.gone, h.noted.imp_right fun hoff => ⟨hoff.1, id⟩⟩, rfl⟩
          · exact ⟨h, rfl⟩
      | teardown =>
          have hoff := hsound.quiet (by rw [howner]; trivial)
          have hcleared : s.parts.Cleared Part.needs [.frameArrived] :=
            ⟨hsound.orderly, fun k hk => by
              obtain rfl := List.mem_singleton.mp hk
              exact hsound.revoked (by rw [howner]; trivial)⟩
          have hgone : s.teardown.held .delivery = none := by
            rw [← Option.not_isSome_iff_eq_none, held, (stands_teardown hcleared).held_iff]
            exact List.not_mem_nil
          cases next with
          | stop | fail => exact ⟨⟨hgone, .inr ⟨hoff, id⟩⟩, frames_append_of_none rfl⟩
          | start target => exact ⟨⟨hgone, .inr ⟨hoff, id⟩⟩, frames_append_of_none rfl⟩
  | arming =>
      refine ⟨⟨h.gone, .inl (h.noted.resolve_right fun hoff => hoff.2 ?_)⟩, rfl⟩
      rw [howner]
      trivial
  | idle | activating target | launching => exact ⟨h, rfl⟩

/-- A frame of the size it had makes no new texture, and is not delivered. -/
theorem Starved.onFrame (h : s.Starved size) (sender : ℕ) {a : Arrival}
    (hcontent : a.content = size) :
    (s.onFrame sender a).Starved size ∧ frames (s.onFrame sender a).log = frames s.log := by
  unfold WgcCaptureSource.onFrame
  split
  · exact ⟨⟨h.gone, h.noted⟩, rfl⟩
  next hon =>
  split
  · exact ⟨⟨h.gone, h.noted⟩, rfl⟩
  have hnoted : s.deliverySize = size :=
    h.noted.resolve_right fun hoff => hon (by rw [hoff.1]; rfl)
  rw [resize_same (hcontent.trans hnoted.symm)]
  dsimp only
  rw [if_pos (by rw [h.gone]; rfl)]
  exact ⟨⟨h.gone, h.noted⟩, rfl⟩

/-- **No step brings the texture back** while the display keeps its size. -/
theorem Starved.step (h : s.Starved size) (hsound : s.Sound) {a : Act} (ha : a.Keeps size) :
    (s.step a).Starved size ∧ frames (s.step a).log = frames s.log := by
  cases a with
  | start target | stop =>
      simp only [WgcCaptureSource.step]
      split
      · exact ⟨⟨h.gone, h.noted.imp_right fun hoff => ⟨hoff.1, id⟩⟩, rfl⟩
      · exact ⟨h, rfl⟩
  | owner => exact h.stepOwner hsound
  | activate a => exact ha.elim
  | launch ok =>
      simp only [WgcCaptureSource.step, WgcCaptureSource.stepLaunch]
      split
      · split
        · exact ⟨⟨h.gone, h.noted.imp_right fun hoff => ⟨hoff.1, id⟩⟩, frames_append_of_none rfl⟩
        · exact ⟨⟨h.gone, h.noted.imp_right fun hoff => ⟨hoff.1, id⟩⟩, rfl⟩
      · exact ⟨h, rfl⟩
  | raise =>
      simp only [WgcCaptureSource.step, WgcCaptureSource.stepRaise]
      split <;> exact ⟨⟨h.gone, h.noted⟩, rfl⟩
  | enter i =>
      simp only [WgcCaptureSource.step, WgcCaptureSource.stepEnter]
      split
      · split <;> exact ⟨⟨h.gone, h.noted⟩, rfl⟩
      · exact ⟨h, rfl⟩
  | handle a =>
      simp only [WgcCaptureSource.step, WgcCaptureSource.stepHandle]
      split
      · next sender hinside => exact h.onFrame sender ha
      · exact ⟨h, rfl⟩
  | return_ =>
      simp only [WgcCaptureSource.step, WgcCaptureSource.stepReturn]
      split
      · exact ⟨⟨h.gone, h.noted⟩, frames_append_of_none rfl⟩
      · exact ⟨h, rfl⟩

/-- It stays without one as long as the size stays. -/
theorem Starved.run (h : s.Starved size) (hsound : s.Sound) {acts : List Act}
    (hacts : ∀ a ∈ acts, a.Keeps size) :
    (Runs.exec WgcCaptureSource.step s acts).Starved size ∧
      frames (Runs.exec WgcCaptureSource.step s acts).log = frames s.log := by
  induction acts generalizing s with
  | nil => exact ⟨h, rfl⟩
  | cons a acts ih =>
      obtain ⟨hstarved, hframes⟩ := h.step hsound (hacts a List.mem_cons_self)
      obtain ⟨hlater, hsame⟩ :=
        ih hstarved (hsound.step a) fun b hb => hacts b (List.mem_cons_of_mem a hb)
      exact ⟨hlater, hsame.trans hframes⟩

/-- **A texture that could not be made is missed** until the display's size changes once more: while
frames come in the size that is noted, none is delivered, whatever the threads do, and the next one
that is delivered is one of another size whose texture can be made. -/
theorem frames_lost (front acts : List Act) (size : Size)
    (hgone : (after front).held .delivery = none) (hnoted : (after front).deliverySize = size)
    (hacts : ∀ a ∈ acts, a.Keeps size) :
    let s := after (front ++ acts)
    frames s.log = frames (after front).log ∧
      ∀ sender a, s.inside = some (.entered sender) → s.capturing = true →
        s.held .pool = some sender → a.frame = true → a.surface = true →
          ((∃ f, frames (s.step (.handle a)).log = frames s.log ++ [f]) ↔
            a.content ≠ size ∧ a.created = true) := by
  have hsound := sound_after (front ++ acts)
  have hafter : after (front ++ acts) = Runs.exec step (after front) acts := Runs.exec_append ..
  obtain ⟨hstarved, hframes⟩ := Starved.run ⟨hgone, .inl hnoted⟩ (sound_after front) hacts
  rw [← hafter] at hstarved hframes
  refine ⟨hframes, fun sender a hinside hon hpool hframe hsurface => ?_⟩
  have hsize := hstarved.noted.resolve_right fun hoff => Bool.false_ne_true (hoff.1.symm.trans hon)
  rw [onFrame_delivers hsound hinside hon hpool hframe hsurface, hsize, hstarved.gone]
  by_cases hsame : a.content = size <;> simp [hsame]

/-- The display shrinks, the texture cannot be made, and the display takes its size again. -/
theorem frames_lost_once :
    let size : Size := ⟨1920, 1080⟩
    let nvidia : DxgiAdapter :=
      { desc := some { vendorId := 0x10DE }, outputs := [some ⟨"d", 1⟩] }
    let front : List Act :=
      [.start "d", .owner, .owner, .owner, .owner,
        .activate { adapters := some [nvidia], size := some size }, .owner, .launch true,
        .raise, .enter 0, .handle { content := size }, .return_,
        .raise, .enter 0, .handle { content := ⟨1280, 720⟩, created := false }]
    let acts : List Act := [.raise, .enter 0, .handle { content := size }, .raise, .enter 0,
      .handle { content := size }]
    (frames (after front).log).length = 1 ∧
      frames (after (front ++ acts)).log = frames (after front).log := by
  refine ⟨by decide +kernel, (frames_lost _ _ ⟨1920, 1080⟩ (by decide +kernel)
    (by decide +kernel) ?_).1⟩
  simp [Act.Keeps]

end WgcCaptureSource

end TetherDisplay.Capture
