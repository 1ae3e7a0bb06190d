import Mathlib.Algebra.Ring.Nat
import Mathlib.Data.List.Basic
import Mathlib.Tactic.Common

/-!
# Incremental framing

A framed stream is cut into items by looking at its unread end only: the bytes
still unread begin with a whole item, or they are certainly wrong, or more of
them are needed before either can be said.  `Grammar` is that classification
together with the one property that makes reading in pieces possible: **what has
been said of a string stays true of every longer string** (`item_append`,
`fail_append`).

* `Grammar.parse` reads a whole string at once: the items it begins with, the
  bytes left, and the fault that stopped it, if one did.
* `BufferedReader` is an implementation that is fed the string in pieces and
  asked for the next item in between: any state with an unread buffer, a `feed`
  and a `next` that answers as the grammar says.
* `BufferedReader.parse_run` is the law of all such readers.  Whatever the pieces
  and wherever the requests fall between them, the items answered so far followed
  by the parse of what is still unread are the parse of everything fed.

`next` answers `Except ε (Option α)`: a fault, nothing yet, or an item.
-/

namespace Framing

universe u v w

variable {β : Type u} {α : Type v} {ε : Type w}

/-- What the unread end of a stream is known to begin with. -/
inductive Scan (α : Type v) (ε : Type w) where
  /-- Nothing can be said before more is read. -/
  | more
  /-- A whole item, which takes up `used` symbols. -/
  | item (a : α) (used : ℕ)
  /-- Nothing that any continuation could make well formed. -/
  | fail (e : ε)
  deriving DecidableEq, Repr

/-- A framing: a classification of unread input that no continuation revises. -/
structure Grammar (β : Type u) (α : Type v) (ε : Type w) where
  scan : List β → Scan α ε
  used_pos : ∀ {s a k}, scan s = .item a k → 0 < k
  used_le : ∀ {s a k}, scan s = .item a k → k ≤ s.length
  item_append : ∀ {s a k}, scan s = .item a k → ∀ t, scan (s ++ t) = .item a k
  fail_append : ∀ {s e}, scan s = .fail e → ∀ t, scan (s ++ t) = .fail e

/-- The outcome of reading a string in one go. -/
structure Parsed (β : Type u) (α : Type v) (ε : Type w) where
  items : List α
  rest : List β
  fault : Option ε
  deriving DecidableEq, Repr

namespace Grammar

variable (G : Grammar β α ε)

/-- The parse with a bound on the number of items. -/
def parseAtMost : ℕ → List β → Parsed β α ε
  | 0, s => ⟨[], s, none⟩
  | n + 1, s =>
      match G.scan s with
      | .more => ⟨[], s, none⟩
      | .fail e => ⟨[], s, some e⟩
      | .item a k =>
          let p := parseAtMost n (s.drop k)
          ⟨a :: p.items, p.rest, p.fault⟩

/-- **The one-shot parse.**  Every item takes up a symbol at least, so a string
holds no more items than symbols and the bound is never met. -/
def parse (s : List β) : Parsed β α ε := G.parseAtMost (s.length + 1) s

variable {G}

/-- A bound above the length of the string plays no part. -/
theorem parseAtMost_eq {n m : ℕ} {s : List β} (hn : s.length < n)
    (hm : s.length < m) : G.parseAtMost n s = G.parseAtMost m s := by
  induction n generalizing m s with
  | zero => omega
  | succ n ih =>
      obtain ⟨m, rfl⟩ : ∃ k, m = k + 1 := ⟨m - 1, by omega⟩
      simp only [parseAtMost]
      cases hscan : G.scan s with
      | more => rfl
      | fail e => rfl
      | item a k =>
          have hpos := G.used_pos hscan
          have hle := G.used_le hscan
          have hshort : (s.drop k).length < s.length := by
            rw [List.length_drop]; omega
          have htail : G.parseAtMost n (s.drop k) = G.parseAtMost m (s.drop k) :=
            ih (by omega) (by omega)
          simp only [htail]

/-- What is too short is left. -/
theorem parse_more {s : List β} (h : G.scan s = .more) : G.parse s = ⟨[], s, none⟩ := by
  simp [parse, parseAtMost, h]

/-- What is wrong ends the parse. -/
theorem parse_fail {s : List β} {e : ε} (h : G.scan s = .fail e) :
    G.parse s = ⟨[], s, some e⟩ := by
  simp [parse, parseAtMost, h]

/-- One unrolling of the parse at a string that begins with an item. -/
theorem parse_item {s : List β} {a : α} {k : ℕ} (h : G.scan s = .item a k) :
    G.parse s = ⟨a :: (G.parse (s.drop k)).items, (G.parse (s.drop k)).rest,
      (G.parse (s.drop k)).fault⟩ := by
  have hpos := G.used_pos h
  have hle := G.used_le h
  have htail : G.parseAtMost s.length (s.drop k) = G.parse (s.drop k) :=
    parseAtMost_eq (by rw [List.length_drop]; omega) (by omega)
  rw [parse, parseAtMost, h]
  simp only [htail]

/-- A string read in two goes: the items of the first, then what the second makes of
the bytes left over. -/
theorem parse_append (s t : List β) :
    G.parse (s ++ t) =
      ⟨(G.parse s).items ++ (G.parse ((G.parse s).rest ++ t)).items,
        (G.parse ((G.parse s).rest ++ t)).rest, (G.parse ((G.parse s).rest ++ t)).fault⟩ := by
  induction hlen : s.length using Nat.strongRecOn generalizing s with
  | ind n ih =>
      cases hscan : G.scan s with
      | more => simp [parse_more hscan]
      | fail e => simp [parse_fail hscan]
      | item a k =>
          have hpos := G.used_pos hscan
          have hle := G.used_le hscan
          have htail := ih (s.drop k).length (by rw [List.length_drop]; omega) (s.drop k) rfl
          rw [parse_item (G.item_append hscan t), List.drop_append_of_le_length hle, htail,
            parse_item hscan]
          rfl

/-- A fault is there to stay. -/
theorem fault_append {s : List β} {e : ε} (h : (G.parse s).fault = some e) (t : List β) :
    (G.parse (s ++ t)).fault = some e := by
  induction hlen : s.length using Nat.strongRecOn generalizing s with
  | ind n ih =>
      cases hscan : G.scan s with
      | more =>
          rw [parse_more hscan] at h
          cases h
      | fail e' =>
          rw [parse_fail hscan] at h
          rw [parse_fail (G.fail_append hscan t)]
          exact h
      | item a k =>
          have hpos := G.used_pos hscan
          have hle := G.used_le hscan
          rw [parse_item hscan] at h
          rw [parse_item (G.item_append hscan t), List.drop_append_of_le_length hle]
          exact ih (s.drop k).length (by rw [List.length_drop]; omega) h rfl

end Grammar

/-! ## Buffered readers -/

/-- An implementation of a grammar that is fed in pieces.  `unread` is the input
it has been given and not yet turned into items. -/
structure BufferedReader (G : Grammar β α ε) (σ : Type*) where
  unread : σ → List β
  feed : σ → List β → σ
  next : σ → Except ε (Option α) × σ
  unread_feed : ∀ s c, unread (feed s c) = unread s ++ c
  next_more : ∀ {s}, G.scan (unread s) = .more →
    (next s).1 = .ok none ∧ unread (next s).2 = unread s
  next_item : ∀ {s a k}, G.scan (unread s) = .item a k →
    (next s).1 = .ok (some a) ∧ unread (next s).2 = (unread s).drop k
  next_fail : ∀ {s e}, G.scan (unread s) = .fail e →
    (next s).1 = .error e ∧ unread (next s).2 = unread s

/-- What the caller of a buffered reader does next. -/
inductive Call (β : Type u) where
  | feed (chunk : List β)
  | next
  deriving DecidableEq, Repr

/-- Everything a sequence of calls feeds, in order. -/
def fed : List (Call β) → List β
  | [] => []
  | .feed chunk :: calls => chunk ++ fed calls
  | .next :: calls => fed calls

/-- The items among the answers of a sequence of calls, in order. -/
def itemsOf : List (Except ε (Option α)) → List α
  | [] => []
  | .ok (some a) :: answers => a :: itemsOf answers
  | .ok none :: answers => itemsOf answers
  | .error _ :: answers => itemsOf answers

@[simp] theorem fed_nil : fed ([] : List (Call β)) = [] := rfl

@[simp] theorem fed_feed (chunk : List β) (calls : List (Call β)) :
    fed (.feed chunk :: calls) = chunk ++ fed calls := rfl

@[simp] theorem fed_next (calls : List (Call β)) : fed (.next :: calls) = fed calls := rfl

@[simp] theorem itemsOf_nil : itemsOf ([] : List (Except ε (Option α))) = [] := rfl

@[simp] theorem itemsOf_item (a : α) (answers : List (Except ε (Option α))) :
    itemsOf (.ok (some a) :: answers) = a :: itemsOf answers := rfl

@[simp] theorem itemsOf_more (answers : List (Except ε (Option α))) :
    itemsOf (.ok none :: answers) = itemsOf answers := rfl

@[simp] theorem itemsOf_fail (e : ε) (answers : List (Except ε (Option α))) :
    itemsOf (.error e :: answers) = itemsOf answers := rfl

/-- The answers to a sequence of calls, one for each `next`, and the state the
calls leave behind. -/
def runCalls {σ : Type*} (feed : σ → List β → σ)
    (next : σ → Except ε (Option α) × σ) :
    σ → List (Call β) → List (Except ε (Option α)) × σ
  | s, [] => ([], s)
  | s, .feed chunk :: calls => runCalls feed next (feed s chunk) calls
  | s, .next :: calls =>
      let answered := next s
      let later := runCalls feed next answered.2 calls
      (answered.1 :: later.1, later.2)

/-- Calls made in two goes. -/
theorem runCalls_append {σ : Type*} (feed : σ → List β → σ)
    (next : σ → Except ε (Option α) × σ) (s : σ) (calls later : List (Call β)) :
    runCalls feed next s (calls ++ later) =
      ((runCalls feed next s calls).1 ++
        (runCalls feed next (runCalls feed next s calls).2 later).1,
        (runCalls feed next (runCalls feed next s calls).2 later).2) := by
  induction calls generalizing s with
  | nil => rfl
  | cons call calls ih =>
      cases call with
      | feed chunk => exact ih (feed s chunk)
      | next => simp only [List.cons_append, runCalls, ih]

namespace BufferedReader

variable {G : Grammar β α ε} {σ : Type*} (R : BufferedReader G σ)

/-- The run of a reader through a sequence of calls. -/
abbrev run (s : σ) (calls : List (Call β)) : List (Except ε (Option α)) × σ :=
  runCalls R.feed R.next s calls

/-- What `next` does depends on the unread input alone. -/
theorem next_congr {s s' : σ} (h : R.unread s = R.unread s') :
    (R.next s).1 = (R.next s').1 ∧ R.unread (R.next s).2 = R.unread (R.next s').2 := by
  cases hscan : G.scan (R.unread s) with
  | more =>
      obtain ⟨hanswer, hkept⟩ := R.next_more hscan
      obtain ⟨hanswer', hkept'⟩ := R.next_more (h ▸ hscan)
      exact ⟨hanswer.trans hanswer'.symm, by rw [hkept, hkept', h]⟩
  | fail e =>
      obtain ⟨hanswer, hkept⟩ := R.next_fail hscan
      obtain ⟨hanswer', hkept'⟩ := R.next_fail (h ▸ hscan)
      exact ⟨hanswer.trans hanswer'.symm, by rw [hkept, hkept', h]⟩
  | item a k =>
      obtain ⟨hanswer, hdropped⟩ := R.next_item hscan
      obtain ⟨hanswer', hdropped'⟩ := R.next_item (h ▸ hscan)
      exact ⟨hanswer.trans hanswer'.symm, by rw [hdropped, hdropped', h]⟩

/-- **The law of buffered readers.**  The items a reader has answered, followed
by the parse of what it still holds, are the parse of all it was fed.  The
induction is on the calls; a `next` that answers an item takes it off the front
of both sides, because an item recognised in the buffer is still recognised with
the input that arrives later. -/
theorem parse_run (s : σ) (calls : List (Call β)) :
    G.parse (R.unread s ++ fed calls) =
      ⟨itemsOf (R.run s calls).1 ++ (G.parse (R.unread (R.run s calls).2)).items,
        (G.parse (R.unread (R.run s calls).2)).rest,
        (G.parse (R.unread (R.run s calls).2)).fault⟩ := by
  induction calls generalizing s with
  | nil => simp [run, runCalls]
  | cons call calls ih =>
      cases call with
      | feed chunk =>
          have hfeed := ih (R.feed s chunk)
          rw [R.unread_feed, List.append_assoc] at hfeed
          exact hfeed
      | next =>
          have hlater := ih (R.next s).2
          cases hscan : G.scan (R.unread s) with
          | more =>
              obtain ⟨hanswer, hkept⟩ := R.next_more hscan
              rw [hkept] at hlater
              simpa [run, runCalls, hanswer] using hlater
          | fail e =>
              obtain ⟨hanswer, hkept⟩ := R.next_fail hscan
              rw [hkept] at hlater
              simpa [run, runCalls, hanswer] using hlater
          | item a k =>
              obtain ⟨hanswer, hdropped⟩ := R.next_item hscan
              have hle := G.used_le hscan
              rw [hdropped] at hlater
              rw [fed_next, Grammar.parse_item (G.item_append hscan (fed calls)),
                List.drop_append_of_le_length hle, hlater]
              simp [run, runCalls, hanswer]

/-- A reader that has been fed a whole string and has nothing more to answer has
answered the items of the one-shot parse and holds exactly what that leaves. -/
theorem run_drained {s : σ} {calls : List (Call β)}
    (hmore : (R.next (R.run s calls).2).1 = .ok none) :
    G.parse (R.unread s ++ fed calls) =
      ⟨itemsOf (R.run s calls).1, R.unread (R.run s calls).2, none⟩ := by
  rw [R.parse_run s calls]
  cases hscan : G.scan (R.unread (R.run s calls).2) with
  | more => rw [Grammar.parse_more hscan, List.append_nil]
  | fail e => simp [(R.next_fail hscan).1] at hmore
  | item a k => simp [(R.next_item hscan).1] at hmore

/-- A reader that answers a fault has answered the items of the one-shot parse,
which is stopped by the same fault before the same input. -/
theorem run_faulted {s : σ} {calls : List (Call β)} {e : ε}
    (hfault : (R.next (R.run s calls).2).1 = .error e) :
    G.parse (R.unread s ++ fed calls) =
      ⟨itemsOf (R.run s calls).1, R.unread (R.run s calls).2, some e⟩ := by
  rw [R.parse_run s calls]
  cases hscan : G.scan (R.unread (R.run s calls).2) with
  | more => simp [(R.next_more hscan).1] at hfault
  | item a k => simp [(R.next_item hscan).1] at hfault
  | fail e' =>
      rw [(R.next_fail hscan).1] at hfault
      cases hfault
      rw [Grammar.parse_fail hscan, List.append_nil]

/-- **A fault is terminal**: after it every `next` answers the same fault, no
matter what is fed in between. -/
theorem run_after_fault {s : σ} {e : ε} (h : (R.next s).1 = .error e)
    (calls : List (Call β)) :
    ∀ answer ∈ (R.run s calls).1, answer = .error e := by
  have hscan : G.scan (R.unread s) = .fail e := by
    cases hscan : G.scan (R.unread s) with
    | more => simp [(R.next_more hscan).1] at h
    | item a k => simp [(R.next_item hscan).1] at h
    | fail e' =>
        rw [(R.next_fail hscan).1] at h
        cases h
        rfl
  clear h
  induction calls generalizing s with
  | nil => simp [run, runCalls]
  | cons call calls ih =>
      cases call with
      | feed chunk =>
          refine ih ?_
          rw [R.unread_feed]
          exact G.fail_append hscan chunk
      | next =>
          obtain ⟨hanswer, hkept⟩ := R.next_fail hscan
          simp only [run, runCalls, List.mem_cons, forall_eq_or_imp]
          exact ⟨hanswer, ih (by rw [hkept]; exact hscan)⟩

/-- The answer of one more `next` stops being an item after at most as many calls
as there are unread symbols. -/
theorem drains (s : σ) :
    ∃ k ≤ (R.unread s).length, ∀ a,
      (R.next (R.run s (List.replicate k .next)).2).1 ≠ .ok (some a) := by
  induction hlen : (R.unread s).length using Nat.strongRecOn generalizing s with
  | ind n ih =>
      cases hscan : G.scan (R.unread s) with
      | more => exact ⟨0, by omega, by simp [run, runCalls, (R.next_more hscan).1]⟩
      | fail e => exact ⟨0, by omega, by simp [run, runCalls, (R.next_fail hscan).1]⟩
      | item a k =>
          have hpos := G.used_pos hscan
          have hle := G.used_le hscan
          have hdropped := (R.next_item hscan).2
          have hshort : (R.unread (R.next s).2).length < n := by
            rw [hdropped, List.length_drop]; omega
          obtain ⟨j, hj, hdone⟩ := ih _ hshort (R.next s).2 rfl
          refine ⟨j + 1, by omega, ?_⟩
          simpa [run, runCalls, List.replicate_succ] using hdone

/-- A reader that has nothing to answer goes on having nothing to answer. -/
theorem itemsOf_idle {s : σ} (h : ∀ a k, G.scan (R.unread s) ≠ .item a k) (n : ℕ) :
    itemsOf (R.run s (List.replicate n .next)).1 = [] := by
  induction n generalizing s with
  | zero => rfl
  | succ n ih =>
      simp only [List.replicate_succ, run, runCalls]
      cases hscan : G.scan (R.unread s) with
      | more =>
          obtain ⟨hanswer, hkept⟩ := R.next_more hscan
          rw [hanswer, itemsOf_more]
          exact ih (by rw [hkept]; exact h)
      | fail e =>
          obtain ⟨hanswer, hkept⟩ := R.next_fail hscan
          rw [hanswer, itemsOf_fail]
          exact ih (by rw [hkept]; exact h)
      | item a k => exact absurd hscan (h a k)

/-- Requests alone, enough of them, answer the items of what is unread. -/
theorem itemsOf_requests {n : ℕ} {s : σ} (hn : (R.unread s).length ≤ n) :
    itemsOf (R.run s (List.replicate n .next)).1 = (G.parse (R.unread s)).items := by
  induction n generalizing s with
  | zero =>
      have hidle : ∀ a k, G.scan (R.unread s) ≠ .item a k := by
        intro a k hscan
        have hpos := G.used_pos hscan
        have hle := G.used_le hscan
        omega
      rw [R.itemsOf_idle hidle]
      cases hscan : G.scan (R.unread s) with
      | more => rw [Grammar.parse_more hscan]
      | fail e => rw [Grammar.parse_fail hscan]
      | item a k => exact absurd hscan (hidle a k)
  | succ n ih =>
      cases hscan : G.scan (R.unread s) with
      | more => rw [R.itemsOf_idle (by simp [hscan]), Grammar.parse_more hscan]
      | fail e => rw [R.itemsOf_idle (by simp [hscan]), Grammar.parse_fail hscan]
      | item a k =>
          obtain ⟨hanswer, hdropped⟩ := R.next_item hscan
          have hpos := G.used_pos hscan
          simp only [List.replicate_succ, run, runCalls]
          rw [hanswer, itemsOf_item, Grammar.parse_item hscan, ← hdropped]
          refine congrArg (a :: ·) (ih ?_)
          rw [hdropped, List.length_drop]
          omega

/-- Symbols are conserved: what is unread, together with what the items answered
took up, is all that was fed. -/
theorem length_run (size : α → ℕ)
    (hsize : ∀ {u a k}, G.scan u = .item a k → k = size a)
    (s : σ) (calls : List (Call β)) :
    (R.unread (R.run s calls).2).length + ((itemsOf (R.run s calls).1).map size).sum =
      (R.unread s).length + (fed calls).length := by
  induction calls generalizing s with
  | nil => simp [run, runCalls]
  | cons call calls ih =>
      cases call with
      | feed chunk =>
          have hfeed := ih (R.feed s chunk)
          rw [R.unread_feed, List.length_append] at hfeed
          simpa [run, runCalls, Nat.add_assoc] using hfeed
      | next =>
          have hlater := ih (R.next s).2
          cases hscan : G.scan (R.unread s) with
          | more =>
              obtain ⟨hanswer, hkept⟩ := R.next_more hscan
              rw [hkept] at hlater
              simpa [run, runCalls, hanswer] using hlater
          | fail e =>
              obtain ⟨hanswer, hkept⟩ := R.next_fail hscan
              rw [hkept] at hlater
              simpa [run, runCalls, hanswer] using hlater
          | item a k =>
              obtain ⟨hanswer, hdropped⟩ := R.next_item hscan
              have hle := G.used_le hscan
              have hk := hsize hscan
              rw [hdropped, List.length_drop] at hlater
              simp only [run, runCalls, hanswer, itemsOf_item, List.map_cons,
                List.sum_cons, fed_next] at hlater ⊢
              omega

end BufferedReader

end Framing
