import TetherDisplay.Foundations.Runs
import Mathlib.Algebra.Order.BigOperators.Group.List
import Mathlib.Algebra.Order.Group.Nat
import Mathlib.Data.List.Basic
import Mathlib.Tactic.Common

/-!
# The textures of the renderer

`draw` wraps the two planes of a frame as textures of Metal.  The wrappers have to live for as long
as the GPU is at the frame, and the renderer keeps them one behind: it holds those of the last
frame itself, and those of the frame before in the completion handler of the last.  Nobody asks
whether the frame before is done.

This is sound where command buffers complete in the order in which they are committed, which is the
order of a queue, and it is what soundness comes to: the textures of every frame in flight are held
throughout a run exactly when no buffer completes before the one ahead of it, and the renderer is
not let go under its last (`textures_held_iff`).  Of wrappers no more are held than of the frames in
flight and one besides.
-/

namespace TetherDisplay.Client

/-- A `CVMetalTexture`: a plane of the frame that is committed with this number. -/
structure CVMetalTexture where
  frame : ℕ
  plane : Fin 2
  deriving DecidableEq

/-- A buffer that is committed and has not completed. -/
structure CommandBuffer (B : Type) where
  number : ℕ
  pixelBuffer : B
  /-- What its draw call reads. -/
  textures : List CVMetalTexture
  /-- What its completion handler holds. -/
  previous : List CVMetalTexture

/-- The renderer, and the textures that it has kept. -/
structure MetalVideoRenderer (B : Type) where
  textureCache : Bool := true
  pendingBuffer : Option B := none
  live : List CVMetalTexture := []

/-- What the frameworks answer in the course of one `draw`. -/
structure DrawAnswers where
  /-- A drawable, a render pass, a command buffer and an encoder. -/
  encoder : Bool := true
  luma : Bool := true
  chroma : Bool := true

/-- The renderer, until it is let go; the queue, from the oldest on; and how many buffers have been
committed. -/
structure Rendering (B : Type) where
  renderer : Option (MetalVideoRenderer B) := some {}
  queue : List (CommandBuffer B) := []
  commits : ℕ := 0

namespace Rendering

variable {B : Type} (r : Rendering B)

/-! ## The source -/

/-- `setPixelBuffer`: the last one counts. -/
def setPixelBuffer (pb : B) : Rendering B :=
  { r with renderer := r.renderer.map fun renderer => { renderer with pendingBuffer := some pb } }

/-- `planeTexture`, with the wrapper that it appends. -/
def planeTexture (plane : Fin 2) (works : Bool) : Option CVMetalTexture :=
  if works then some ⟨r.commits, plane⟩ else none

/-- `draw`: the pending buffer is put on the screen, if all that this takes is there. -/
def draw (a : DrawAnswers) : Rendering B :=
  match r.renderer with
  | none => r
  | some renderer =>
      match renderer.pendingBuffer, renderer.textureCache, a.encoder with
      | some pb, true, true =>
          match r.planeTexture 0 a.luma, r.planeTexture 1 a.chroma with
          | some yTex, some cbcrTex =>
              { renderer := some { renderer with live := [yTex, cbcrTex] }
                queue := r.queue ++
                  [{ number := r.commits, pixelBuffer := pb, textures := [yTex, cbcrTex]
                     previous := renderer.live }]
                commits := r.commits + 1 }
          | _, _ => r
      | _, _, _ => r

/-- What happens next. -/
inductive Act (B : Type) where
  | setPixelBuffer (pb : B)
  | draw (a : DrawAnswers)
  /-- A buffer in flight completes, and its handler has run. -/
  | completed (i : ℕ)
  /-- Nothing holds the renderer any more. -/
  | deinit

/-- One step. -/
def step : Act B → Rendering B
  | .setPixelBuffer pb => r.setPixelBuffer pb
  | .draw a => r.draw a
  | .completed i => { r with queue := r.queue.eraseIdx i }
  | .deinit => { r with renderer := none }

/-- The renderer after a run. -/
def after (acts : List (Act B)) : Rendering B := Runs.exec step {} acts

/-- The wrappers that something holds. -/
def retained : List CVMetalTexture :=
  (r.renderer.map MetalVideoRenderer.live).getD [] ++ r.queue.flatMap CommandBuffer.previous

/-- The GPU reads nothing that is not held. -/
def Held : Prop := ∀ cmd ∈ r.queue, ∀ t ∈ cmd.textures, t ∈ r.retained

instance : Decidable r.Held := inferInstanceAs (Decidable (∀ cmd ∈ _, ∀ t ∈ _, _))

/-- A buffer completes before the one ahead of it, or the renderer goes before its last. -/
def Early : Act B → Prop
  | .completed i => ∃ cmd ∈ r.queue[i]?, ∃ ahead ∈ r.queue, ahead.number + 1 = cmd.number
  | .deinit => ∃ last ∈ r.queue, last.number + 1 = r.commits
  | _ => False

instance : DecidablePred r.Early
  | .completed _ => inferInstanceAs (Decidable (∃ cmd ∈ _, ∃ ahead ∈ _, _))
  | .deinit => inferInstanceAs (Decidable (∃ last ∈ _, _))
  | .setPixelBuffer _ => inferInstanceAs (Decidable False)
  | .draw _ => inferInstanceAs (Decidable False)

/-! ## Numbers -/

/-- The wrappers of a frame. -/
def texturesOf (n : ℕ) : List CVMetalTexture := [⟨n, 0⟩, ⟨n, 1⟩]

/-- The wrappers of the frame before. -/
def texturesBefore : ℕ → List CVMetalTexture
  | 0 => []
  | n + 1 => texturesOf n

theorem mem_texturesBefore {m n : ℕ} {t : CVMetalTexture} (ht : t ∈ texturesOf m) :
    t ∈ texturesBefore n ↔ n = m + 1 := by
  have hframe : ∀ {m : ℕ}, t ∈ texturesOf m → t.frame = m := by
    intro m ht
    rcases List.mem_pair.mp ht with rfl | rfl <;> rfl
  cases n with
  | zero => simp [texturesBefore]
  | succ n =>
      constructor
      · intro hbefore
        rw [← hframe ht, hframe hbefore]
      · intro h
        rw [texturesBefore, Nat.succ.inj h]
        exact ht

/-- Every buffer in flight reads the textures of its own frame and holds those of the frame before,
and the renderer holds those of the last. -/
structure Numbered : Prop where
  live : ∀ renderer ∈ r.renderer, renderer.live = texturesBefore r.commits
  textures : ∀ cmd ∈ r.queue, cmd.textures = texturesOf cmd.number
  previous : ∀ cmd ∈ r.queue, cmd.previous = texturesBefore cmd.number
  sorted : (r.queue.map CommandBuffer.number).Pairwise (· < ·)
  committed : ∀ cmd ∈ r.queue, cmd.number < r.commits

/-- It holds of a new renderer. -/
theorem numbered_new : Numbered ({} : Rendering B) where
  live := by
    rintro _ ⟨⟩
    rfl
  textures := by rintro _ ⟨⟩
  previous := by rintro _ ⟨⟩
  sorted := List.Pairwise.nil
  committed := by rintro _ ⟨⟩

variable {r}

/-- **What a `draw` does**: nothing, or it commits a buffer for the frame that is pending. -/
theorem draw_cases (a : DrawAnswers) : r.draw a = r ∨
    ∃ renderer pb, r.renderer = some renderer ∧ r.draw a =
      { renderer := some { renderer with live := texturesOf r.commits }
        queue := r.queue ++
          [{ number := r.commits, pixelBuffer := pb, textures := texturesOf r.commits
             previous := renderer.live }]
        commits := r.commits + 1 } := by
  unfold draw
  split
  · exact .inl rfl
  · next renderer hrenderer =>
      split
      · next pb _ _ _ =>
          split
          · next yTex cbcrTex hy hcbcr =>
              refine .inr ⟨renderer, pb, hrenderer, ?_⟩
              unfold planeTexture at hy hcbcr
              split_ifs at hy hcbcr
              cases hy
              cases hcbcr
              rfl
          · exact .inl rfl
      · exact .inl rfl

/-- **One step keeps the numbers.** -/
theorem Numbered.step (h : r.Numbered) (act : Act B) : (r.step act).Numbered := by
  have hkept := h
  obtain ⟨hlive, htextures, hprevious, hsorted, hcommitted⟩ := h
  cases act with
  | setPixelBuffer pb =>
      refine ⟨fun renderer hrenderer => ?_, htextures, hprevious, hsorted, hcommitted⟩
      obtain ⟨old, hold, rfl⟩ := Option.map_eq_some_iff.mp hrenderer
      exact hlive old hold
  | draw a =>
      show (r.draw a).Numbered
      rcases r.draw_cases a with hnothing | ⟨renderer, pb, hrenderer, hcommit⟩
      · rw [hnothing]
        exact hkept
      · rw [hcommit]
        constructor
        · rintro _ ⟨⟩
          rfl
        · intro cmd hcmd
          rcases List.mem_append.mp hcmd with hcmd | hcmd
          · exact htextures cmd hcmd
          · rw [List.mem_singleton.mp hcmd]
        · intro cmd hcmd
          rcases List.mem_append.mp hcmd with hcmd | hcmd
          · exact hprevious cmd hcmd
          · rw [List.mem_singleton.mp hcmd]
            exact hlive renderer hrenderer
        · rw [List.map_append, List.pairwise_append]
          refine ⟨hsorted, List.pairwise_singleton _ _, fun m hm n hn => ?_⟩
          obtain ⟨cmd, hcmd, rfl⟩ := List.mem_map.mp hm
          rw [List.mem_singleton.mp hn]
          exact hcommitted cmd hcmd
        · intro cmd hcmd
          rcases List.mem_append.mp hcmd with hcmd | hcmd
          · exact Nat.lt_succ_of_lt (hcommitted cmd hcmd)
          · rw [List.mem_singleton.mp hcmd]
            exact Nat.lt_succ_self _
  | completed i =>
      have hsub : (r.queue.eraseIdx i).Sublist r.queue := List.eraseIdx_sublist _ _
      exact ⟨hlive, fun cmd hcmd => htextures cmd (hsub.subset hcmd),
        fun cmd hcmd => hprevious cmd (hsub.subset hcmd), hsorted.sublist (hsub.map _),
        fun cmd hcmd => hcommitted cmd (hsub.subset hcmd)⟩
  | deinit => exact ⟨by rintro _ ⟨⟩, htextures, hprevious, hsorted, hcommitted⟩

/-- **Who holds what a frame needs**: the renderer if it is the last, and the next frame if that is
in flight. -/
theorem Numbered.held_iff (h : r.Numbered) : r.Held ↔
    ∀ cmd ∈ r.queue, cmd.number + 1 = r.commits ∧ r.renderer.isSome ∨
      ∃ next ∈ r.queue, next.number = cmd.number + 1 := by
  have hmem : ∀ cmd ∈ r.queue, ∀ t ∈ cmd.textures, (t ∈ r.retained ↔
      cmd.number + 1 = r.commits ∧ r.renderer.isSome ∨
        ∃ next ∈ r.queue, next.number = cmd.number + 1) := by
    intro cmd hcmd t ht
    rw [h.textures cmd hcmd] at ht
    rw [retained, List.mem_append, List.mem_flatMap]
    refine or_congr ?_ (exists_congr fun next => and_congr_right fun hnext => ?_)
    · cases hrenderer : r.renderer with
      | none => simp
      | some renderer =>
          show t ∈ renderer.live ↔ _
          rw [h.live renderer hrenderer, mem_texturesBefore ht, eq_comm]
          simp
    · rw [h.previous next hnext, mem_texturesBefore ht]
  constructor
  · intro hheld cmd hcmd
    have hluma : (⟨cmd.number, 0⟩ : CVMetalTexture) ∈ cmd.textures := by
      rw [h.textures cmd hcmd]
      exact List.mem_cons_self
    exact (hmem cmd hcmd _ hluma).mp (hheld cmd hcmd _ hluma)
  · intro hnext cmd hcmd t ht
    exact (hmem cmd hcmd t ht).mpr (hnext cmd hcmd)

/-- In flight there is one buffer with a number, and in one place. -/
theorem Numbered.index_eq (h : r.Numbered) {i j : ℕ} {cmd other : CommandBuffer B}
    (hi : r.queue[i]? = some cmd) (hj : r.queue[j]? = some other)
    (hnumber : cmd.number = other.number) : i = j := by
  have hnodup : (r.queue.map CommandBuffer.number).Nodup :=
    h.sorted.imp fun hlt => Nat.ne_of_lt hlt
  have hlength : i < (r.queue.map CommandBuffer.number).length := by
    rw [List.length_map]
    exact (List.getElem?_eq_some_iff.mp hi).1
  refine (List.getElem?_inj hlength hnodup).mp ?_
  rw [List.getElem?_map, List.getElem?_map, hi, hj, Option.map_some, Option.map_some, hnumber]

/-- A buffer completes. -/
theorem Numbered.held_completed_iff (h : r.Numbered) (hheld : r.Held) (i : ℕ) :
    (r.step (.completed i)).Held ↔ ¬ r.Early (.completed i) := by
  have hnumbered := h.step (.completed i)
  rw [hnumbered.held_iff]
  rw [h.held_iff] at hheld
  cases hcmd : r.queue[i]? with
  | none =>
      have hsame : r.queue.eraseIdx i = r.queue :=
        List.eraseIdx_of_length_le (List.getElem?_eq_none_iff.mp hcmd)
      have hearly : ¬ r.Early (.completed i) := by
        rintro ⟨cmd, hsome, -⟩
        cases hcmd.symm.trans hsome
      refine iff_of_true ?_ hearly
      show ∀ c ∈ r.queue.eraseIdx i, _ ∨ ∃ next ∈ r.queue.eraseIdx i, _
      rw [hsame]
      exact hheld
  | some cmd =>
      constructor
      · rintro hall ⟨cmd', hcmd', ahead, hahead, hnext⟩
        cases hcmd.symm.trans hcmd'
        obtain ⟨j, hj⟩ := List.mem_iff_getElem?.mp hahead
        have hne : j ≠ i := by
          rintro rfl
          cases hcmd.symm.trans hj
          omega
        -- the one ahead is left, and what it needs is not
        rcases hall ahead (List.mem_eraseIdx_iff_getElem?.mpr ⟨j, hne, hj⟩) with
          ⟨hlast, -⟩ | ⟨next, hleft, hnumber⟩
        · have hlt := h.committed cmd (List.mem_of_getElem? hcmd)
          have hlast' : ahead.number + 1 = r.commits := hlast
          omega
        · obtain ⟨k, hk, hat⟩ := List.mem_eraseIdx_iff_getElem?.mp hleft
          exact hk (h.index_eq hat hcmd (hnumber.trans hnext))
      · intro hlate c hc
        obtain ⟨j, hj, hat⟩ := List.mem_eraseIdx_iff_getElem?.mp hc
        have hqueue := List.mem_of_getElem? hat
        rcases hheld c hqueue with hlast | ⟨next, hnext, hnumber⟩
        · exact .inl hlast
        · obtain ⟨k, hk⟩ := List.mem_iff_getElem?.mp hnext
          refine .inr ⟨next, List.mem_eraseIdx_iff_getElem?.mpr ⟨k, ?_, hk⟩, hnumber⟩
          rintro rfl
          cases hcmd.symm.trans hk
          exact hlate ⟨cmd, hcmd, c, hqueue, hnumber.symm⟩

/-- **One step** keeps what the GPU reads exactly when nothing ends too early. -/
theorem Numbered.held_step_iff (h : r.Numbered) (hheld : r.Held) (act : Act B) :
    (r.step act).Held ↔ ¬ r.Early act := by
  have hnumbered := h.step act
  cases act with
  | completed i => exact h.held_completed_iff hheld i
  | setPixelBuffer pb =>
      refine iff_of_true ?_ id
      rw [hnumbered.held_iff]
      intro cmd hcmd
      rcases (h.held_iff.mp hheld) cmd hcmd with ⟨hlast, hsome⟩ | hnext
      · exact .inl ⟨hlast, Option.isSome_map.trans hsome⟩
      · exact .inr hnext
  | deinit =>
      rw [hnumbered.held_iff]
      rw [h.held_iff] at hheld
      constructor
      · rintro hall ⟨last, hlast, hnumber⟩
        rcases hall last hlast with ⟨-, hsome⟩ | ⟨next, hnext, hafter⟩
        · cases hsome
        · have hlt := h.committed next hnext
          omega
      · intro hlate cmd hcmd
        rcases hheld cmd hcmd with ⟨hlast, -⟩ | hnext
        · exact absurd ⟨cmd, hcmd, hlast⟩ hlate
        · exact .inr hnext
  | draw a =>
      refine iff_of_true ?_ id
      show (r.draw a).Held
      have hdrawn : (r.draw a).Numbered := hnumbered
      rcases r.draw_cases a with hnothing | ⟨renderer, pb, hrenderer, hcommit⟩
      · rw [hnothing]
        exact hheld
      · rw [hdrawn.held_iff, hcommit]
        rw [h.held_iff] at hheld
        intro cmd hcmd
        rcases List.mem_append.mp hcmd with hcmd | hcmd
        · right
          rcases hheld cmd hcmd with ⟨hlast, -⟩ | ⟨next, hnext, hnumber⟩
          · exact ⟨_, List.mem_append_right _ (List.mem_singleton_self _), hlast.symm⟩
          · exact ⟨next, List.mem_append_left _ hnext, hnumber⟩
        · rw [List.mem_singleton.mp hcmd]
          exact .inl ⟨rfl, rfl⟩

/-- The oldest buffer has none ahead of it. -/
theorem Numbered.not_early (h : r.Numbered) : ¬ r.Early (.completed 0) := by
  rintro ⟨cmd, hcmd, ahead, hahead, hnumber⟩
  have hsorted := List.pairwise_map.mp h.sorted
  cases hqueue : r.queue with
  | nil =>
      rw [hqueue] at hahead
      exact absurd hahead List.not_mem_nil
  | cons first rest =>
      rw [hqueue] at hcmd hahead hsorted
      cases hcmd
      rcases List.mem_cons.mp hahead with rfl | hlater
      · omega
      · have hlt := (List.pairwise_cons.mp hsorted).1 ahead hlater
        omega

/-- Two textures for each buffer in flight, and two for the renderer. -/
theorem Numbered.length_retained (h : r.Numbered) :
    r.retained.length ≤ 2 * (r.queue.length + 1) := by
  have htwo : ∀ n, (texturesBefore n).length ≤ 2 := by
    intro n
    cases n with
    | zero => exact Nat.zero_le _
    | succ n => exact Nat.le_refl _
  have hlive : ((r.renderer.map MetalVideoRenderer.live).getD []).length ≤ 2 := by
    cases hrenderer : r.renderer with
    | none => exact Nat.zero_le _
    | some renderer =>
        show renderer.live.length ≤ 2
        rw [h.live renderer hrenderer]
        exact htwo _
  have hprevious : (r.queue.flatMap CommandBuffer.previous).length ≤ r.queue.length * 2 := by
    rw [List.length_flatMap]
    have hsum := List.sum_le_card_nsmul (r.queue.map fun cmd => cmd.previous.length) 2 (by
      intro n hn
      obtain ⟨cmd, hcmd, rfl⟩ := List.mem_map.mp hn
      rw [h.previous cmd hcmd]
      exact htwo _)
    simpa using hsum
  rw [retained, List.length_append]
  omega

/-- **When the textures of a frame are held.**  In a run of the renderer with its queue, all that
the GPU may read is held, in every state, exactly when no buffer completes before the one ahead of
it and the renderer is not let go while its last frame is in flight.  In particular it is so where
buffers complete in their order and the renderer stays.  And of textures no more are held than
those of the frames in flight and of one besides. -/
theorem textures_held_iff (acts : List (Act B)) :
    ((∀ front back, acts = front ++ back → (after front).Held) ↔
        Runs.Admits step (fun r act => ¬ r.Early act) {} acts) ∧
      ((∀ act ∈ acts, ∀ i, act = .completed i → i = 0) → .deinit ∉ acts →
        ∀ front back, acts = front ++ back → (after front).Held) ∧
      (after acts).retained.length ≤ 2 * ((after acts).queue.length + 1) := by
  have hiff : (∀ front back, acts = front ++ back → (after front).Held) ↔
      Runs.Admits step (fun r act => ¬ r.Early act) {} acts :=
    Runs.forall_front_iff (Q := Numbered) (fun _ act h => h.step act)
      (fun _ act h hheld => h.held_step_iff hheld act) numbered_new (by rintro _ ⟨⟩)
  have hnumbered : ∀ acts : List (Act B), (after acts).Numbered := fun acts =>
    Runs.exec_preserves (fun _ act h => h.step act) numbered_new acts
  refine ⟨hiff, fun hordered hstays => hiff.mpr (Runs.admits_iff.mpr ?_),
    (hnumbered acts).length_retained⟩
  rintro front act back rfl
  cases act with
  | completed i =>
      have hmem : .completed i ∈ front ++ .completed i :: back :=
        List.mem_append_right _ List.mem_cons_self
      obtain rfl := hordered _ hmem i rfl
      exact (hnumbered front).not_early
  | deinit => exact absurd (List.mem_append_right _ List.mem_cons_self) hstays
  | setPixelBuffer pb => exact id
  | draw a => exact id

end Rendering

end TetherDisplay.Client
