import TetherDisplay.Client.FramingError
import TetherDisplay.Client.HEVCDecoder
import TetherDisplay.Foundations.Custody
import Mathlib.Data.List.Nodup

/-!
# The sessions of VideoToolbox

A `HEVCDecoder` makes a session for the format that it has been given and puts all it decodes
through it, until the parameter sets make another format; then it invalidates the session, and the
next slices make a new one.  VideoToolbox calls the decoder back through a pointer that does not
keep it alive, so there must be no session left when the decoder goes.

`Decoding` is the decoder with the calls that it makes; without them it is the one of `HEVCDecoder`
(`decoder_decode`).  Over every run of access units, whatever
the frameworks answer, the sessions are made and invalidated in turn, one at a time, and every
sample goes into the one that is there, under a format that equals its own (`sessions_served`).
The session stays for as long as the format does, and only so long (`session_stays_iff`): what
VideoToolbox makes of a sample is not looked at, so a session that it has given up on is not
replaced.  With frameworks that do as they are asked, what is decoded is every access unit from the
first with all three parameter sets on (`decoded_from_parameterSets`).  And no unit that
`VideoSession` hands on is too long for the length in front of it (`never_traps`).
-/

namespace TetherDisplay.Client

/-- A `VTDecompressionSession`, and the description that it was made for. -/
structure DecodeSession (F : Type) where
  id : ℕ
  format : F
  deriving DecidableEq

/-- What is asked of VideoToolbox about its sessions. -/
inductive SessionCall (F : Type) where
  | created (s : DecodeSession F)
  | decodeFrame (s : DecodeSession F) (format : F) (avcc : Bytes)
  | invalidated (s : DecodeSession F)
  deriving DecidableEq

/-- What the frameworks answer in the course of one `decode`. -/
structure Answers (F : Type) where
  createFormatDescription : Bytes → Bytes → Bytes → Option F
  createSession : Bool := true
  /-- The block buffer and the sample of `makeSampleBuffer`. -/
  makeSampleBuffer : Bool := true

/-- The decoder, the calls it has made, and how many sessions there have been. -/
structure Decoding (F : Type) where
  formatDesc : Option F := none
  session : Option (DecodeSession F) := none
  calls : List (SessionCall F) := []
  sessions : ℕ := 0

/-- The units of an access unit by type, as the loop of `decode` sorts them. -/
def sortUnits (accessUnit : Bytes) : SortedUnits :=
  (splitNALUnits accessUnit).foldl SortedUnits.add {}

variable {F : Type} (equal : F → F → Bool)

namespace Decoding

variable (r : Decoding F) (a : Answers F)

/-! ## The source -/

/-- Also all that `deinit` does. -/
def invalidate : Decoding F :=
  { r with
    formatDesc := none
    session := none
    calls := r.calls ++ r.session.toList.map .invalidated }

/-- `equal` is `CMFormatDescriptionEqual`. -/
def makeFormatDescription (vps sps pps : Bytes) : Decoding F :=
  match a.createFormatDescription vps sps pps with
  | none => r
  | some fmt =>
      let r := match r.formatDesc with
        | some existing => if equal fmt existing then r else r.invalidate
        | none => r
      { r with formatDesc := some fmt }

/-- `createSession`: a session for the format, if the framework makes one. -/
def createSession (fmt : F) : Decoding F :=
  if a.createSession then
    { r with
      session := some ⟨r.sessions, fmt⟩
      calls := r.calls ++ [.created ⟨r.sessions, fmt⟩]
      sessions := r.sessions + 1 }
  else r

/-- The parameter sets, if all three are there. -/
def refresh (units : SortedUnits) : Decoding F :=
  match units.vps, units.sps, units.pps with
  | some v, some s, some p => r.makeFormatDescription equal a v s p
  | _, _, _ => r

/-- A session is made if there is none. -/
def withSession (fmt : F) : Decoding F := if r.session.isNone then r.createSession a fmt else r

/-- The slices, behind the parameter sets. -/
def decodeSlices (vcl : List Bytes) : Decoding F :=
  match r.formatDesc with
  | none => r
  | some fmt =>
      if vcl.isEmpty then r
      else
        let r := r.withSession a fmt
        match r.session with
        | none => r
        | some session =>
            match lengthPrefixed vcl with
            | none => r
            | some avcc =>
                if a.makeSampleBuffer then
                  { r with calls := r.calls ++ [.decodeFrame session fmt avcc] }
                else r

/-- `decode`. -/
def decode (accessUnit : Bytes) : Decoding F :=
  let units := sortUnits accessUnit
  (r.refresh equal a units).decodeSlices a units.vcl

/-- An access unit, and what the frameworks answer. -/
abbrev Act (F : Type) := Bytes × Answers F

/-- One access unit, with what the framework answers. -/
def step (act : Act F) : Decoding F := r.decode equal act.2 act.1

/-- The decoder after a run. -/
def after (acts : List (Act F)) : Decoding F := Runs.exec (step equal) {} acts

/-! ## The decoder on its own -/

/-- Sessions are numbered as they are made. -/
def videoToolbox (sessions : ℕ) : VideoToolbox F (DecodeSession F) where
  createFormatDescription := a.createFormatDescription
  formatDescriptionEqual := equal
  createSession fmt := if a.createSession then some ⟨sessions, fmt⟩ else none

/-- The decoder of the sessions. -/
def decoder : HEVCDecoder F (DecodeSession F) where
  formatDesc := r.formatDesc
  session := r.session

/-- A change of format makes no session. -/
theorem sessions_refresh (units : SortedUnits) :
    (r.refresh equal a units).sessions = r.sessions := by
  unfold refresh
  split
  · unfold makeFormatDescription
    split
    · rfl
    · dsimp only
      split
      · split <;> rfl
      · rfl
  · rfl

/-- The decoder of the sessions makes its format as the plain one does. -/
theorem decoder_makeFormatDescription (vps sps pps : Bytes) :
    (r.makeFormatDescription equal a vps sps pps).decoder =
      r.decoder.makeFormatDescription (videoToolbox equal a r.sessions) vps sps pps := by
  simp only [makeFormatDescription, HEVCDecoder.makeFormatDescription, decoder, videoToolbox]
  cases a.createFormatDescription vps sps pps with
  | none => rfl
  | some fmt =>
      cases hfmt : r.formatDesc with
      | none => rfl
      | some existing => cases hequal : equal fmt existing <;> simp [hequal, invalidate]

/-- The decoder of the sessions refreshes its format as the plain one does. -/
theorem decoder_refresh (units : SortedUnits) :
    (r.refresh equal a units).decoder =
      r.decoder.refresh (videoToolbox equal a r.sessions) units := by
  unfold refresh HEVCDecoder.refresh
  cases units.vps with
  | none => rfl
  | some v =>
      cases units.sps with
      | none => rfl
      | some s =>
          cases units.pps with
          | none => rfl
          | some p => exact r.decoder_makeFormatDescription equal a v s p

/-- **The calls are those of the decoder**: without them it is the one modelled before. -/
theorem decoder_decode (accessUnit : Bytes) :
    (r.decode equal a accessUnit).decoder =
      (r.decoder.decode (videoToolbox equal a r.sessions) accessUnit).2 := by
  unfold decode HEVCDecoder.decode
  rw [← sortUnits]
  dsimp only
  rw [← decoder_refresh, ← sessions_refresh equal r a (sortUnits accessUnit)]
  generalize r.refresh equal a (sortUnits accessUnit) = r'
  unfold decodeSlices
  show decoder _ = Prod.snd (match r'.formatDesc with | none => _ | some fmt => _)
  cases hfmt : r'.formatDesc with
  | none => rfl
  | some fmt =>
      cases hnone : (sortUnits accessUnit).vcl.isEmpty with
      | true => rfl
      | false =>
          cases hsession : r'.session with
          | some session =>
              cases lengthPrefixed (sortUnits accessUnit).vcl with
              | none => simp [hsession, decoder, withSession]
              | some avcc =>
                  cases a.makeSampleBuffer <;> simp [hsession, decoder, withSession]
          | none =>
              cases hcreate : a.createSession with
              | false => simp [hsession, hcreate, decoder, withSession, createSession,
                  videoToolbox]
              | true =>
                  cases lengthPrefixed (sortUnits accessUnit).vcl with
                  | none => simp [hsession, hcreate, hfmt, decoder, withSession, createSession,
                      videoToolbox]
                  | some avcc =>
                      cases a.makeSampleBuffer <;>
                        simp [hsession, hcreate, hfmt, decoder, withSession, createSession,
                      videoToolbox]

theorem formatDesc_withSession (fmt : F) : (r.withSession a fmt).formatDesc = r.formatDesc := by
  unfold withSession createSession
  split
  · split <;> rfl
  · rfl

/-! ## One session at a time -/

variable {equal r a}

/-- The calls, as a client's of VideoToolbox. -/
def events (r : Decoding F) : List (Custody.Event (DecodeSession F) Empty) :=
  r.calls.map fun
    | .created s => .opened s
    | .decodeFrame s _ _ => .used s
    | .invalidated s => .closed s

variable [DecidableEq F]

variable (equal) in
/-- The calls are in order and leave the session that there is, which has been made for the format
that there is; and so was the session of every sample. -/
structure Sound (r : Decoding F) : Prop where
  run : Custody.run {} r.events = some ⟨r.session, none⟩
  numbered : (Custody.openings r.events).map DecodeSession.id = List.range r.sessions
  current : ∀ s ∈ r.session, ∃ fmt, r.formatDesc = some fmt ∧ equal fmt s.format = true
  samples : ∀ s fmt avcc, .decodeFrame s fmt avcc ∈ r.calls → equal fmt s.format = true

/-- It holds of a new decoder. -/
theorem sound_new : Sound equal {} where
  run := rfl
  numbered := rfl
  current _ h := by cases h
  samples _ _ _ h := by cases h

/-- Letting a session go keeps it. -/
theorem Sound.invalidate (h : r.Sound equal) : r.invalidate.Sound equal := by
  obtain ⟨hrun, hnumbered, -, hsamples⟩ := h
  have hevents : r.invalidate.events = r.events ++ r.session.toList.map .closed := by
    unfold events Decoding.invalidate
    cases r.session <;> simp
  refine ⟨?_, ?_, by rintro _ ⟨⟩, fun s fmt avcc hmem => ?_⟩
  · rw [hevents, Custody.run_append, hrun]
    cases hsession : r.session <;> simp [Decoding.invalidate]
  · rw [hevents]
    cases hsession : r.session <;>
      simpa [Decoding.invalidate, Custody.openings, Custody.Event.opening] using hnumbered
  · rcases List.mem_append.mp hmem with hmem | hmem
    · exact hsamples s fmt avcc hmem
    · obtain ⟨_, _, hcall⟩ := List.mem_map.mp hmem
      cases hcall

/-- Another description is kept, which the session is made for as well. -/
theorem Sound.describe (h : r.Sound equal) {fmt : F}
    (hcurrent : ∀ s ∈ r.session, equal fmt s.format = true) :
    Sound equal { r with formatDesc := some fmt } :=
  ⟨h.run, h.numbered, fun s hs => ⟨fmt, rfl, hcurrent s hs⟩, h.samples⟩

/-- Making a format keeps it. -/
theorem Sound.makeFormatDescription (h : r.Sound equal)
    (htrans : ∀ x y z, equal x y = true → equal y z = true → equal x z = true)
    (vps sps pps : Bytes) : (r.makeFormatDescription equal a vps sps pps).Sound equal := by
  unfold Decoding.makeFormatDescription
  cases a.createFormatDescription vps sps pps with
  | none => exact h
  | some fmt =>
      dsimp only
      cases hfmt : r.formatDesc with
      | none =>
          refine h.describe fun s hs => ?_
          obtain ⟨_, hsome, -⟩ := h.current s hs
          cases hfmt.symm.trans hsome
      | some existing =>
          dsimp only
          split
          · next hequal =>
              refine h.describe fun s hs => ?_
              obtain ⟨_, hsome, hsession⟩ := h.current s hs
              cases hfmt.symm.trans hsome
              exact htrans _ _ _ hequal hsession
          · exact h.invalidate.describe (by rintro _ ⟨⟩)

/-- Refreshing the format keeps it. -/
theorem Sound.refresh (h : r.Sound equal)
    (htrans : ∀ x y z, equal x y = true → equal y z = true → equal x z = true)
    (units : SortedUnits) : (r.refresh equal a units).Sound equal := by
  unfold Decoding.refresh
  split
  · exact h.makeFormatDescription htrans _ _ _
  · exact h

/-- A session is made where there is none. -/
theorem Sound.createSession (h : r.Sound equal) (hrefl : ∀ fmt, equal fmt fmt = true) {fmt : F}
    (hfmt : r.formatDesc = some fmt) (hnone : r.session = none) :
    (r.createSession a fmt).Sound equal := by
  unfold Decoding.createSession
  split
  · obtain ⟨hrun, hnumbered, -, hsamples⟩ := h
    refine ⟨?_, ?_, ?_, fun s fmt' avcc hmem => ?_⟩
    · have hopened : events { r with calls := r.calls ++ [.created ⟨r.sessions, fmt⟩] } =
          r.events ++ [.opened ⟨r.sessions, fmt⟩] := by simp [events]
      show Custody.run {} (events { r with calls := _ }) = _
      rw [hopened, Custody.run_append, hrun, hnone]
      simp
    · show List.map _ (Custody.openings (events { r with calls := _ })) = List.range (_ + 1)
      rw [List.range_succ, ← hnumbered]
      simp [events, Custody.openings, Custody.Event.opening]
    · rintro s ⟨⟩
      exact ⟨fmt, hfmt, hrefl fmt⟩
    · rcases List.mem_append.mp hmem with hmem | hmem
      · exact hsamples s fmt' avcc hmem
      · cases List.mem_singleton.mp hmem
  · exact h

/-- A sample goes into the session that there is. -/
theorem Sound.decodeFrame (h : r.Sound equal) {s : DecodeSession F} (hsession : r.session = some s)
    {fmt : F} (hfmt : r.formatDesc = some fmt) (avcc : Bytes) :
    Sound equal { r with calls := r.calls ++ [.decodeFrame s fmt avcc] } := by
  obtain ⟨hrun, hnumbered, hcurrent, hsamples⟩ := h
  refine ⟨?_, ?_, hcurrent, fun s' fmt' avcc' hmem => ?_⟩
  · have hused : events { r with calls := r.calls ++ [.decodeFrame s fmt avcc] } =
        r.events ++ [.used s] := by simp [events]
    rw [hused, Custody.run_append, hrun, hsession]
    simp
  · rw [← hnumbered]
    simp [events, Custody.openings, Custody.Event.opening]
  · rcases List.mem_append.mp hmem with hmem | hmem
    · exact hsamples s' fmt' avcc' hmem
    · cases List.mem_singleton.mp hmem
      obtain ⟨_, hsome, hequal⟩ := hcurrent s hsession
      cases hfmt.symm.trans hsome
      exact hequal

/-- Decoding keeps it. -/
theorem Sound.decodeSlices (h : r.Sound equal) (hrefl : ∀ fmt, equal fmt fmt = true)
    (vcl : List Bytes) : (r.decodeSlices a vcl).Sound equal := by
  unfold Decoding.decodeSlices
  split
  · exact h
  · next fmt hfmt =>
      split
      · exact h
      · have hready : (r.withSession a fmt).Sound equal := by
          unfold withSession
          split
          · next hnone => exact h.createSession hrefl hfmt (Option.isNone_iff_eq_none.mp hnone)
          · exact h
        have hkept : (r.withSession a fmt).formatDesc = some fmt :=
          (r.formatDesc_withSession a fmt).trans hfmt
        dsimp only
        split
        · exact hready
        · next s hsession =>
            split
            · exact hready
            · split
              · exact hready.decodeFrame hsession hkept _
              · exact hready

/-- **One access unit.** -/
theorem Sound.step (h : r.Sound equal) (hrefl : ∀ fmt, equal fmt fmt = true)
    (htrans : ∀ x y z, equal x y = true → equal y z = true → equal x z = true) (act : Act F) :
    (r.step equal act).Sound equal :=
  (h.refresh htrans _).decodeSlices hrefl _

/-- **It holds in all states of a run.** -/
theorem sound_after (hrefl : ∀ fmt, equal fmt fmt = true)
    (htrans : ∀ x y z, equal x y = true → equal y z = true → equal x z = true)
    (acts : List (Act F)) : (after equal acts).Sound equal :=
  Runs.exec_preserves (fun _ act h => h.step hrefl htrans act) sound_new acts

variable (equal) in
/-- **Every session is served and put away.**  Over every run of access units, whatever the
frameworks answer: sessions are made and invalidated in turn, one at a time, each sample goes into
the one there is, under a format that equals the one it was made for; and when the decoder goes,
each session that it has made has been invalidated, once. -/
theorem sessions_served (hrefl : ∀ fmt, equal fmt fmt = true)
    (htrans : ∀ x y z, equal x y = true → equal y z = true → equal x z = true)
    (acts : List (Act F)) :
    let r := after equal acts
    Custody.run {} r.events = some ⟨r.session, none⟩ ∧
      (∀ s fmt avcc, .decodeFrame s fmt avcc ∈ r.calls → equal fmt s.format = true) ∧
      (Custody.openings r.events).Nodup ∧
      Custody.openings r.events = Custody.closings r.events ++ r.session.toList ∧
      Custody.run {} r.invalidate.events = some {} ∧
      Custody.openings r.invalidate.events = Custody.closings r.invalidate.events := by
  intro r
  have hsound : r.Sound equal := sound_after hrefl htrans acts
  have hended := hsound.invalidate.run
  refine ⟨hsound.run, hsound.samples, ?_, Custody.openings_eq hsound.run, hended, ?_⟩
  · have hids : ((Custody.openings r.events).map DecodeSession.id).Nodup := by
      rw [hsound.numbered]
      exact List.nodup_range
    exact List.Nodup.of_map DecodeSession.id hids
  · exact (Custody.openings_eq hended).trans (List.append_nil _)

/-- The parameter sets, which end in `k`, and a slice. -/
def keyframe (k : UInt8) : Bytes :=
  [0, 0, 0, 1, 0x40, k, 0, 0, 1, 0x42, k, 0, 0, 1, 0x44, k, 0, 0, 1, 0x26, 1]

/-- Nothing fails, and a format is its parameter sets. -/
def compliant : Answers (Bytes × Bytes × Bytes) where
  createFormatDescription v s p := some (v, s, p)

theorem beq_trans (x y z : Bytes × Bytes × Bytes) (hxy : (x == y) = true) (hyz : (y == z) = true) :
    (x == z) = true := by
  rw [beq_iff_eq] at *
  exact hxy.trans hyz

/-- The format changes from one access unit to the next. -/
theorem sessions_served_changed :
    let r := after (· == ·) [(keyframe 1, compliant), (keyframe 2, compliant)]
    (Custody.openings r.events).length = 2 ∧
      Custody.openings r.invalidate.events = Custody.closings r.invalidate.events := by
  intro r
  obtain ⟨-, -, -, -, -, hended⟩ := sessions_served (· == ·) (fun _ => beq_self_eq_true _)
    beq_trans [(keyframe 1, compliant), (keyframe 2, compliant)]
  exact ⟨by decide +kernel, hended⟩

/-! ## How long a session stays -/

variable (equal) in
/-- The parameter sets of an access unit make another format. -/
def Changes (r : Decoding F) (act : Act F) : Prop :=
  ∃ v ∈ (sortUnits act.1).vps, ∃ s ∈ (sortUnits act.1).sps, ∃ p ∈ (sortUnits act.1).pps,
    ∃ fmt ∈ act.2.createFormatDescription v s p, ∃ existing ∈ r.formatDesc,
      equal fmt existing = false

instance (r : Decoding F) (act : Act F) : Decidable (r.Changes equal act) :=
  inferInstanceAs (Decidable (∃ v ∈ _, ∃ s ∈ _, ∃ p ∈ _, ∃ fmt ∈ _, ∃ existing ∈ _, _))

variable (equal) in
omit [DecidableEq F] in
/-- A session outlives an access unit that does not change the format, and no other. -/
theorem refresh_session (r : Decoding F) (act : Act F) :
    (r.Changes equal act → (r.refresh equal act.2 (sortUnits act.1)).session = none) ∧
      (¬ r.Changes equal act →
        (r.refresh equal act.2 (sortUnits act.1)).session = r.session ∧
          (r.refresh equal act.2 (sortUnits act.1)).calls = r.calls) := by
  unfold refresh Changes
  cases (sortUnits act.1).vps with
  | none => simp
  | some v =>
      cases (sortUnits act.1).sps with
      | none => simp
      | some s =>
          cases (sortUnits act.1).pps with
          | none => simp
          | some p =>
              unfold makeFormatDescription
              cases hmade : act.2.createFormatDescription v s p with
              | none => simp [hmade]
              | some fmt =>
                  cases hfmt : r.formatDesc with
                  | none => simp [hmade]
                  | some existing =>
                      cases hequal : equal fmt existing <;> simp [hmade, hequal, invalidate]

omit [DecidableEq F] in
theorem sessions_decodeSlices_of_some (r : Decoding F) (a : Answers F) (vcl : List Bytes)
    {s : DecodeSession F} (hsession : r.session = some s) :
    (r.decodeSlices a vcl).session = some s ∧
      (r.decodeSlices a vcl).sessions = r.sessions ∧
      ∃ frames, (r.decodeSlices a vcl).calls = r.calls ++ frames ∧
        ∀ c ∈ frames, ∃ fmt avcc, c = .decodeFrame s fmt avcc := by
  have hready : ∀ fmt, r.withSession a fmt = r := by
    intro fmt
    rw [withSession, hsession]
    rfl
  have hsame : r.session = some s ∧ r.sessions = r.sessions ∧
      ∃ frames, r.calls = r.calls ++ frames ∧
        ∀ c ∈ frames, ∃ fmt avcc, c = .decodeFrame s fmt avcc :=
    ⟨hsession, rfl, [], (List.append_nil _).symm, fun _ hc => absurd hc List.not_mem_nil⟩
  unfold decodeSlices
  simp only [hready, hsession]
  split
  · exact hsame
  · next fmt _ =>
      split
      · exact hsame
      · cases lengthPrefixed vcl with
        | none => exact hsame
        | some avcc =>
            dsimp only
            split
            · refine ⟨rfl, rfl, [.decodeFrame s fmt avcc], rfl, fun c hc => ?_⟩
              exact ⟨fmt, avcc, List.mem_singleton.mp hc⟩
            · exact hsame

omit [DecidableEq F] in
/-- Where there is no session, one is made with the next number, or none. -/
theorem sessions_decodeSlices_of_none (r : Decoding F) (a : Answers F) (vcl : List Bytes)
    (hnone : r.session = none) :
    r.sessions ≤ (r.decodeSlices a vcl).sessions ∧
      ∀ s ∈ (r.decodeSlices a vcl).session, s.id = r.sessions := by
  have hsame : r.sessions ≤ r.sessions ∧ ∀ s ∈ r.session, s.id = r.sessions := by
    rw [hnone]
    exact ⟨Nat.le_refl _, by rintro _ ⟨⟩⟩
  have hmade : ∀ fmt, r.sessions ≤ (r.withSession a fmt).sessions ∧
      ∀ s ∈ (r.withSession a fmt).session, s.id = r.sessions := by
    intro fmt
    rw [withSession, hnone, if_pos Option.isNone_none, createSession]
    split
    · exact ⟨Nat.le_succ _, by rintro _ ⟨⟩; rfl⟩
    · exact hsame
  unfold decodeSlices
  split
  · exact hsame
  · next fmt _ =>
      split
      · exact hsame
      · dsimp only
        split
        · exact hmade fmt
        · split
          · exact hmade fmt
          · split
            · exact hmade fmt
            · exact hmade fmt

/-- A session that has been is not there again. -/
def Gone (s : DecodeSession F) (r : Decoding F) : Prop := s.id < r.sessions ∧ r.session ≠ some s

omit [DecidableEq F] in
/-- Decoding does not bring back a session that is gone. -/
theorem Gone.decodeSlices {s : DecodeSession F} (h : r.Gone s) (vcl : List Bytes) :
    (r.decodeSlices a vcl).Gone s := by
  obtain ⟨hold, hne⟩ := h
  cases hsession : r.session with
  | none =>
      obtain ⟨hmore, hnew⟩ := r.sessions_decodeSlices_of_none a vcl hsession
      refine ⟨Nat.lt_of_lt_of_le hold hmore, fun hback => ?_⟩
      exact absurd (hnew s hback) (Nat.ne_of_lt hold)
  | some s' =>
      obtain ⟨hkept, hsessions, -⟩ := r.sessions_decodeSlices_of_some a vcl hsession
      refine ⟨hsessions ▸ hold, ?_⟩
      rw [hkept, ← hsession]
      exact hne

omit [DecidableEq F] in
/-- A session that is gone stays so. -/
theorem Gone.step {s : DecodeSession F} (h : r.Gone s) (act : Act F) :
    (r.step equal act).Gone s := by
  refine Gone.decodeSlices ⟨?_, ?_⟩ _
  · rw [sessions_refresh]
    exact h.1
  · by_cases hchanges : r.Changes equal act
    · rw [(r.refresh_session equal act).1 hchanges]
      rintro ⟨⟩
    · rw [((r.refresh_session equal act).2 hchanges).1]
      exact h.2

variable (equal) in
omit [DecidableEq F] in
/-- One access unit keeps the session exactly when it does not change the format. -/
theorem step_session {s : DecodeSession F} (hsession : r.session = some s)
    (hold : s.id < r.sessions) (act : Act F) :
    (r.Changes equal act → (r.step equal act).Gone s) ∧
      (¬ r.Changes equal act → (r.step equal act).session = some s ∧
        s.id < (r.step equal act).sessions ∧
        ∃ frames, (r.step equal act).calls = r.calls ++ frames ∧
          ∀ c ∈ frames, ∃ fmt avcc, c = .decodeFrame s fmt avcc) := by
  obtain ⟨hchanged, hsame⟩ := r.refresh_session equal act
  have hcount := sessions_refresh equal r act.2 (sortUnits act.1)
  constructor
  · intro hchanges
    refine Gone.decodeSlices ⟨?_, ?_⟩ _
    · rw [hcount]
      exact hold
    · rw [hchanged hchanges]
      rintro ⟨⟩
  · intro hchanges
    obtain ⟨hkept, hcalls⟩ := hsame hchanges
    obtain ⟨hstays, hsessions, frames, hframes, hall⟩ :=
      sessions_decodeSlices_of_some _ act.2 (sortUnits act.1).vcl (hkept.trans hsession)
    refine ⟨hstays, ?_, frames, ?_, hall⟩
    · show _ < (decodeSlices _ _ _).sessions
      rw [hsessions, hcount]
      exact hold
    · show (decodeSlices _ _ _).calls = _
      rw [hframes, hcalls]

/-- **How long a session stays.**  From a state with a session on, it is still there after any
access units exactly when none of them makes another format; and then nothing has been asked of
VideoToolbox but to decode with it.  So a session that has failed, about which nobody asks, is used
until the format changes. -/
theorem session_stays_iff {acts : List (Act F)} {s : DecodeSession F}
    (hrefl : ∀ fmt, equal fmt fmt = true)
    (htrans : ∀ x y z, equal x y = true → equal y z = true → equal x z = true)
    (hsession : (after equal acts).session = some s) (later : List (Act F)) :
    ((after equal (acts ++ later)).session = some s ↔
        Runs.Admits (step equal) (fun r act => ¬ r.Changes equal act) (after equal acts) later) ∧
      (Runs.Admits (step equal) (fun r act => ¬ r.Changes equal act) (after equal acts) later →
        ∃ frames, (after equal (acts ++ later)).calls = (after equal acts).calls ++ frames ∧
          ∀ c ∈ frames, ∃ fmt avcc, c = .decodeFrame s fmt avcc) := by
  have hold : s.id < (after equal acts).sessions := by
    have hsound : (after equal acts).Sound equal := sound_after hrefl htrans acts
    have hopened : s ∈ Custody.openings (after equal acts).events := by
      have hcustody := Custody.openings_eq hsound.run
      rw [Option.toList_none, List.nil_append] at hcustody
      rw [hcustody, hsession]
      exact List.mem_append_right _ (List.mem_singleton_self s)
    have hid := List.mem_map_of_mem (f := DecodeSession.id) hopened
    rw [hsound.numbered] at hid
    exact List.mem_range.mp hid
  have hsplit : after equal (acts ++ later) = Runs.exec (step equal) (after equal acts) later :=
    Runs.exec_append _ _ _ _
  rw [hsplit]
  clear hsplit
  generalize after equal acts = r at hsession hold
  have hgone : ∀ {r : Decoding F}, r.Gone s → ∀ later, (Runs.exec (step equal) r later).Gone s :=
    fun h later => Runs.exec_preserves (fun _ act h => h.step act) h later
  induction later generalizing r with
  | nil => exact ⟨iff_of_true hsession trivial, fun _ => ⟨[], (List.append_nil _).symm,
      fun _ hc => absurd hc List.not_mem_nil⟩⟩
  | cons act later ih =>
      obtain ⟨hchanged, hsame⟩ := r.step_session equal hsession hold act
      rw [Runs.exec_cons]
      by_cases hchanges : r.Changes equal act
      · refine ⟨iff_of_false (hgone (hchanged hchanges) later).2 fun h => h.1 hchanges,
          fun h => absurd hchanges h.1⟩
      · obtain ⟨hstays, hold', frames, hcalls, hframes⟩ := hsame hchanges
        obtain ⟨hiff, hmore⟩ := ih (r.step equal act) hstays hold'
        refine ⟨hiff.trans ⟨fun h => ⟨hchanges, h⟩, fun h => h.2⟩, fun h => ?_⟩
        obtain ⟨frames', hcalls', hframes'⟩ := hmore h.2
        refine ⟨frames ++ frames', ?_, fun c hc => ?_⟩
        · rw [hcalls', hcalls, List.append_assoc]
        · rcases List.mem_append.mp hc with hc | hc
          · exact hframes c hc
          · exact hframes' c hc

/-- A keyframe like the first, and a slice on its own. -/
theorem session_stays_iff_same :
    (after (· == ·) ([(keyframe 1, compliant)] ++
      [(keyframe 1, compliant), ([0, 0, 1, 2, 1], compliant)])).session =
        some ⟨0, ([0x40, 1], [0x42, 1], [0x44, 1])⟩ := by
  have hsession : (after (· == ·) [(keyframe 1, compliant)]).session =
      some ⟨0, ([0x40, 1], [0x42, 1], [0x44, 1])⟩ := by decide +kernel
  have hsame : Runs.Admits (step (· == ·)) (fun r act => ¬ r.Changes (· == ·) act)
      (after (· == ·) [(keyframe 1, compliant)])
      [(keyframe 1, compliant), ([0, 0, 1, 2, 1], compliant)] := by decide +kernel
  exact (session_stays_iff (fun _ => beq_self_eq_true _) beq_trans hsession _).1.mpr hsame

/-! ## What is decoded -/

/-- What goes into the samples, in order. -/
def samples (r : Decoding F) : List Bytes :=
  r.calls.filterMap fun
    | .decodeFrame _ _ avcc => some avcc
    | _ => none

/-- All three parameter sets are there. -/
def Complete (accessUnit : Bytes) : Prop :=
  (sortUnits accessUnit).vps.isSome ∧ (sortUnits accessUnit).sps.isSome ∧
    (sortUnits accessUnit).pps.isSome

instance : DecidablePred Complete := fun _ => inferInstanceAs (Decidable (_ ∧ _ ∧ _))

/-- The buffer of an access unit with slices in it. -/
def bufferOf (accessUnit : Bytes) : Option Bytes :=
  if (sortUnits accessUnit).vcl.isEmpty then none else lengthPrefixed (sortUnits accessUnit).vcl

/-- The frameworks do as they are asked. -/
structure Works (a : Answers F) : Prop where
  format : ∀ vps sps pps, (a.createFormatDescription vps sps pps).isSome
  session : a.createSession = true
  sample : a.makeSampleBuffer = true

omit [DecidableEq F] in
theorem samples_invalidate (r : Decoding F) : r.invalidate.samples = r.samples := by
  unfold samples invalidate
  cases r.session <;> simp

omit [DecidableEq F] in
/-- Refreshing the format decodes nothing. -/
theorem samples_refresh (r : Decoding F) (a : Answers F) (units : SortedUnits) :
    (r.refresh equal a units).samples = r.samples := by
  unfold refresh
  split
  · unfold makeFormatDescription
    split
    · rfl
    · dsimp only
      split
      · split
        · rfl
        · exact r.samples_invalidate
      · rfl
  · rfl

variable (equal) in
omit [DecidableEq F] in
/-- Where there is a format, and once there are the parameter sets for one. -/
theorem formatDesc_refresh {a : Answers F} (ha : Works a) (r : Decoding F) (accessUnit : Bytes) :
    (r.refresh equal a (sortUnits accessUnit)).formatDesc.isSome ↔
      r.formatDesc.isSome ∨ Complete accessUnit := by
  unfold refresh Complete
  cases (sortUnits accessUnit).vps with
  | none => simp
  | some v =>
      cases (sortUnits accessUnit).sps with
      | none => simp
      | some s =>
          cases (sortUnits accessUnit).pps with
          | none => simp
          | some p =>
              obtain ⟨fmt, hfmt⟩ := Option.isSome_iff_exists.mp (ha.format v s p)
              simp [makeFormatDescription, hfmt]

omit [DecidableEq F] in
/-- Where the framework works, each access unit is decoded once there is a format. -/
theorem samples_decodeSlices {a : Answers F} (ha : Works a) (r : Decoding F) (accessUnit : Bytes) :
    (r.decodeSlices a (sortUnits accessUnit).vcl).formatDesc = r.formatDesc ∧
      (r.decodeSlices a (sortUnits accessUnit).vcl).samples = r.samples ++
        if r.formatDesc.isSome then (bufferOf accessUnit).toList else [] := by
  have hsession : ∀ fmt, (r.withSession a fmt).samples = r.samples ∧
      ∃ s, (r.withSession a fmt).session = some s := by
    intro fmt
    unfold withSession
    split
    · rw [createSession, if_pos ha.session]
      exact ⟨by simp [samples], _, rfl⟩
    · next hsome =>
        refine ⟨rfl, Option.isSome_iff_exists.mp ?_⟩
        exact Option.isSome_iff_ne_none.mpr fun hnone => hsome (by rw [hnone]; rfl)
  unfold decodeSlices bufferOf
  cases hfmt : r.formatDesc with
  | none => exact ⟨hfmt, by simp⟩
  | some fmt =>
      dsimp only
      split
      · exact ⟨hfmt, by simp⟩
      · obtain ⟨hsamples, s, hs⟩ := hsession fmt
        have hkept := (r.formatDesc_withSession a fmt).trans hfmt
        rw [hs]
        cases lengthPrefixed (sortUnits accessUnit).vcl with
        | none => exact ⟨hkept, by simpa using hsamples⟩
        | some avcc =>
            dsimp only
            rw [if_pos ha.sample]
            refine ⟨hkept, ?_⟩
            rw [← hsamples]
            simp [samples]

omit [DecidableEq F] in
/-- From any state on, with frameworks that do as they are asked: once there is a format, every
access unit is decoded. -/
theorem samples_exec (r : Decoding F) {acts : List (Act F)} (hworks : ∀ act ∈ acts, Works act.2) :
    (Runs.exec (step equal) r acts).samples = r.samples ++
      (if r.formatDesc.isSome then acts.map Prod.fst
        else (acts.map Prod.fst).dropWhile fun au => !decide (Complete au)).filterMap bufferOf := by
  induction acts generalizing r with
  | nil => simp
  | cons act acts ih =>
      obtain ⟨hact, hacts⟩ := List.forall_mem_cons.mp hworks
      obtain ⟨hkept, hsamples⟩ := samples_decodeSlices hact
        (r.refresh equal act.2 (sortUnits act.1)) act.1
      have hformat := formatDesc_refresh equal hact r act.1
      rw [samples_refresh] at hsamples
      rw [Runs.exec_cons, ih (r.step equal act) hacts,
        show (r.step equal act).formatDesc = _ from hkept,
        show (r.step equal act).samples = _ from hsamples, List.append_assoc]
      by_cases hready : (r.refresh equal act.2 (sortUnits act.1)).formatDesc.isSome
      · have hlist : (if r.formatDesc.isSome then (act :: acts).map Prod.fst
            else ((act :: acts).map Prod.fst).dropWhile fun au => !decide (Complete au)) =
            act.1 :: acts.map Prod.fst := by
          split
          · rfl
          · next hnone => simp [(hformat.mp hready).resolve_left hnone]
        rw [hlist, if_pos hready, if_pos hready, List.filterMap_cons]
        cases bufferOf act.1 <;> rfl
      · obtain ⟨hnone, hcomplete⟩ := not_or.mp fun h => hready (hformat.mpr h)
        rw [if_neg hready, if_neg hready, if_neg hnone]
        simp [hcomplete]

omit [DecidableEq F] in
/-- **What is decoded.**  In a run in which the frameworks do as they are asked, all access units
with slices are decoded, in their order, from the first on that has all three parameter sets in it,
and nothing before. -/
theorem decoded_from_parameterSets {acts : List (Act F)} (hworks : ∀ act ∈ acts, Works act.2) :
    (after equal acts).samples =
      ((acts.map Prod.fst).dropWhile fun au => !decide (Complete au)).filterMap bufferOf :=
  samples_exec {} hworks

/-- A slice on its own, too early, then a keyframe, and a slice on its own. -/
theorem decoded_from_parameterSets_keyframe :
    (after (· == ·) [([0, 0, 1, 2, 1], compliant), (keyframe 1, compliant),
        ([0, 0, 1, 2, 2], compliant)]).samples =
      ([[0, 0, 1, 2, 1], keyframe 1, [0, 0, 1, 2, 2]].dropWhile fun au =>
        !decide (Complete au)).filterMap bufferOf :=
  decoded_from_parameterSets fun act hact => by
    have hcompliant : act.2 = compliant := by
      simp only [List.mem_cons, List.not_mem_nil, or_false] at hact
      rcases hact with rfl | rfl | rfl <;> rfl
    rw [hcompliant]
    exact ⟨fun _ _ _ => rfl, rfl, rfl⟩

end Decoding

/-! ## The lengths of units -/

section Split

variable {b : Bytes} {i n : ℕ} {nalStart : Option ℕ} {nals : List Bytes}

theorem appendUnit_length (hb : b.length ≤ n) (hnals : ∀ nal ∈ nals, nal.length ≤ n) :
    ∀ nal ∈ appendUnit b nalStart i nals, nal.length ≤ n := by
  cases nalStart with
  | none => exact hnals
  | some start =>
      rw [appendUnit]
      split_ifs
      · intro nal hnal
        rcases List.mem_append.mp hnal with hnal | hnal
        · exact hnals nal hnal
        · rw [List.mem_singleton.mp hnal, slice, List.length_take, List.length_drop]
          omega
      · exact hnals

/-- No unit is longer than the data. -/
theorem scan_length (hb : b.length ≤ n) (hnals : ∀ nal ∈ nals, nal.length ≤ n) :
    ∀ nal ∈ scanNALUnits b i nalStart nals, nal.length ≤ n := by
  fun_induction scanNALUnits b i nalStart nals with
  | case1 i nalStart nals hi hcode ih => exact ih (appendUnit_length hb hnals)
  | case2 i nalStart nals hi hcode ih => exact ih hnals
  | case3 i nalStart nals hi => exact appendUnit_length hb hnals

end Split

/-- No unit is longer than the buffer. -/
theorem splitNALUnits_length (data : Bytes) :
    ∀ nal ∈ splitNALUnits data, nal.length ≤ data.length :=
  scan_length (Nat.le_refl _) (List.forall_mem_nil _)

/-- A control message is not a video frame. -/
theorem decodeControl_ne_videoFrame (type : UInt8) (r : ByteReader) (vf : VideoFrame) :
    decodeControl type r ≠ .ok (.videoFrame vf) := by
  have hfinish : ∀ r m, m ≠ .videoFrame vf → finish r m ≠ .ok (.videoFrame vf) := by
    intro r m hne
    unfold finish
    split_ifs
    · rintro ⟨⟩
    · rintro ⟨⟩
    · rintro ⟨⟩
      exact hne rfl
  unfold decodeControl
  dsimp only
  split_ifs <;> first | exact hfinish _ _ (by rintro ⟨⟩) | rintro ⟨⟩

/-- A frame that has been decoded is shorter than its payload. -/
theorem length_of_videoFrame {f : RawFrame} {vf : VideoFrame}
    (h : decodeMessage f = .ok (.videoFrame vf)) (hmax : f.payload.length ≤ Protocol.kMaxPayload) :
    vf.bitstream.length ≤ Protocol.kMaxPayload - 15 := by
  have hvideo : f.ReasonIsUtf8 := by
    intro hcontrol
    exfalso
    rw [decodeMessage, hcontrol] at h
    split_ifs at h
    exact decodeControl_ne_videoFrame _ _ _ h
  have hsame := decodeMessage_toHost f
  rw [h] at hsame
  cases hhost : Protocol.decodeMessage f.toHost with
  | error e =>
      rw [hhost] at hsame
      exact hsame.elim
  | ok m =>
      rw [hhost] at hsame
      obtain rfl := hsame hvideo
      exact (Protocol.decodeMessage_sound hhost hmax).1

namespace VideoSession

/-- Only a VIDEO_FRAME is decoded. -/
theorem decode_handle {s : VideoSession} {m : Message} {bitstream : Bytes}
    (h : .decode bitstream ∈ (s.handle m).1) :
    ∃ vf, m = .videoFrame vf ∧ vf.bitstream = bitstream := by
  cases m with
  | videoFrame vf =>
      cases List.mem_singleton.mp h
      exact ⟨vf, rfl, rfl⟩
  | ping p => exact absurd h (History.decode_send s _ bitstream)
  | disconnect d => exact absurd h (History.decode_cancel s bitstream)
  | hello | welcome | error | keyframeRequest | formatChange | pong =>
      exact absurd h List.not_mem_nil

/-- What `process` has decoded came in a frame. -/
theorem decode_processLoop (fuel : ℕ) (s : VideoSession) {bitstream : Bytes}
    (h : .decode bitstream ∈ (processLoop fuel s).effects) :
    bitstream.length ≤ Protocol.kMaxPayload - 15 := by
  induction fuel generalizing s with
  | zero => exact absurd h List.not_mem_nil
  | succ fuel ih =>
      unfold processLoop at h
      cases hscan : frameGrammar.scan s.parser.unread with
      | more =>
          obtain ⟨hanswer, -⟩ := frameReader.next_more (s := s.parser) hscan
          rw [show s.parser.next = (.ok none, s.parser.next.2) from Prod.ext hanswer rfl] at h
          exact absurd h List.not_mem_nil
      | fail e =>
          obtain ⟨hanswer, -⟩ := frameReader.next_fail (s := s.parser) hscan
          rw [show s.parser.next = (.error e, s.parser.next.2) from Prod.ext hanswer rfl] at h
          exact absurd h (History.decode_cancel s bitstream)
      | item f k =>
          obtain ⟨hanswer, -⟩ := frameReader.next_item (s := s.parser) hscan
          rw [show s.parser.next = (.ok (some f), s.parser.next.2) from Prod.ext hanswer rfl] at h
          dsimp only at h
          cases hdecode : decodeMessage f with
          | error e =>
              rw [hdecode] at h
              exact absurd h (History.decode_cancel _ bitstream)
          | ok m =>
              rw [hdecode] at h
              rcases List.mem_append.mp h with hnow | hlater
              · obtain ⟨vf, rfl, rfl⟩ := decode_handle hnow
                obtain ⟨g, hg, rfl⟩ := scanFrame_eq_item hscan
                exact length_of_videoFrame hdecode (Protocol.scanFrame_item_iff.mp hg).1
              · exact ih _ hlater

end VideoSession

/-- **The length of a slice always fits.**  Whatever the session is handed, on any connections,
what it hands on to the decoder is less than a frame of the largest size, and so no decoder, in
whatever state and whatever VideoToolbox answers, traps on it. -/
theorem never_traps {events : List Event} {bitstream : Bytes}
    (h : .decode bitstream ∈ (Runs.exec History.step {} events).effects) :
    bitstream.length ≤ Protocol.kMaxPayload - 15 ∧
      ∀ {F S : Type} (vt : VideoToolbox F S) (d : HEVCDecoder F S),
        (d.decode vt bitstream).1 ≠ .trapped := by
  have hsmall : bitstream.length ≤ Protocol.kMaxPayload - 15 := by
    have hstart : .decode bitstream ∈ ({} : History).effects →
        bitstream.length ≤ Protocol.kMaxPayload - 15 := fun h => absurd h List.not_mem_nil
    refine Runs.exec_preserves (P := fun hist : History => .decode bitstream ∈ hist.effects →
      bitstream.length ≤ Protocol.kMaxPayload - 15) (fun hist event hrest h => ?_) hstart events h
    cases event with
    | plaintext conn data =>
        rcases List.mem_append.mp h with h | h
        · exact hrest h
        · exact VideoSession.decode_processLoop _ _ h
    | established conn result learnedPeer =>
        rcases List.mem_append.mp h with h | h
        · exact hrest h
        · exact absurd h (History.decode_established _ _ _ _ bitstream)
    | accept conn | closed conn => exact hrest h
  refine ⟨hsmall, fun vt d => ?_⟩
  have hshort : ∀ nal ∈ slices (splitNALUnits bitstream), nal.length < 2 ^ 32 := by
    intro nal hnal
    have hlength := splitNALUnits_length bitstream nal (List.mem_of_mem_filter hnal)
    have hmax : Protocol.kMaxPayload - 15 < 2 ^ 32 := by decide
    omega
  rcases decode_cases vt d bitstream with hnothing | hbuilt
  · rw [hnothing]
    rintro ⟨⟩
  · rw [hbuilt, lengthPrefixed_eq, if_pos hshort]
    rintro ⟨⟩

/-- A video frame on a connection. -/
theorem never_traps_video :
    let video := (encode (.videoFrame { bitstream := Decoding.keyframe 1 })).getD []
    .decode (Decoding.keyframe 1) ∈
        (Runs.exec History.step {} [.accept 1, .plaintext 1 video]).effects ∧
      ∀ {F S : Type} (vt : VideoToolbox F S) (d : HEVCDecoder F S),
        (d.decode vt (Decoding.keyframe 1)).1 ≠ .trapped := by
  intro video
  have hdecoded : .decode (Decoding.keyframe 1) ∈
      (Runs.exec History.step {} [.accept 1, .plaintext 1 video]).effects := by decide +kernel
  exact ⟨hdecoded, (never_traps hdecoded).2⟩

end TetherDisplay.Client
