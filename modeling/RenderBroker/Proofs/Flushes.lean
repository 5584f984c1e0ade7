import RenderBroker.Stream.Output

namespace RenderBroker

namespace OutputStream

/-- A write: the bytes that it was offered, and how many of them it took, or its fault. -/
structure Write where
  offered : List UInt8
  result : Except Fault Nat

namespace Write

variable {w : Write} {e : FlushEnd}

/-- A write of some bytes, where the outcomes of the writes from now on are laid down. It takes all
if none is. -/
def next (bytes : List UInt8) : List WriteOutcome → Write
  | [] => ⟨bytes, .ok bytes.length⟩
  | .accepts most :: _ => ⟨bytes, .ok (min most bytes.length)⟩
  | .fault f :: _ => ⟨bytes, .error f⟩

def count (w : Write) : Nat :=
  match w.result with
  | .ok n => n
  | .error _ => 0

def taken (w : Write) : List UInt8 :=
  w.offered.take w.count

def ending? (w : Write) : Option FlushEnd :=
  match w.result with
  | .ok 0 => some (.failed .writeZero)
  | .ok (_ + 1) => none
  | .error f =>
    if f = .interrupted then none
    else if f = .wouldBlock then some .blocked
    else some (.failed f)

@[simp] theorem offered_next (bytes : List UInt8) (plan : List WriteOutcome) :
    (next bytes plan).offered = bytes := by
  rw [next.eq_def]
  split <;> rfl

theorem count_next_le (bytes : List UInt8) (plan : List WriteOutcome) :
    (next bytes plan).count ≤ bytes.length := by
  rw [next.eq_def]
  split
  · exact Nat.le_refl _
  · exact Nat.min_le_right ..
  · exact Nat.zero_le _

theorem count_of_ending? (ends : w.ending? = some e) : w.count = 0 := by
  rw [ending?] at ends
  rw [count]
  split at ends
  · next taken => rw [taken]
  · cases ends
  · next failed => rw [failed]

theorem ending?_of_fault {f : Fault} (failed : w.result = .error f) :
    w.ending? = if f = .interrupted then none else if f = .wouldBlock then some .blocked
      else some (.failed f) := by
  rw [ending?, failed]

theorem ending?_of_count {n : Nat} (took : w.result = .ok n) :
    w.ending? = if n = 0 then some (.failed .writeZero) else none := by
  rw [ending?, took]
  cases n with
  | zero => rfl
  | succ n => rfl

theorem ending?_ne_done : w.ending? ≠ some .done := by
  cases result : w.result with
  | ok n =>
    rw [ending?_of_count result]
    split <;> simp
  | error f =>
    rw [ending?_of_fault result]
    split
    · simp
    · split <;> simp

theorem ending?_eq_blocked_iff : w.ending? = some .blocked ↔ w.result = .error .wouldBlock := by
  cases result : w.result with
  | ok n =>
    rw [ending?_of_count result]
    split <;> simp
  | error f =>
    rw [ending?_of_fault result]
    split
    · next again => simp [again]
    · split <;> simp_all

theorem ending?_eq_failed_iff {f : Fault} : w.ending? = some (.failed f) ↔
    w.result = .ok 0 ∧ f = .writeZero ∨
      w.result = .error f ∧ f ≠ .interrupted ∧ f ≠ .wouldBlock := by
  cases result : w.result with
  | ok n =>
    rw [ending?_of_count result]
    split
    · next none => simp [none, eq_comm]
    · next some => simp [some]
  | error g =>
    rw [ending?_of_fault result]
    split
    · next again =>
      simp only [again]
      grind
    · next other =>
      split
      · next full => grind
      · next hard => grind

end Write

/-- A flush on its way: the buffer, how many of its bytes were written, the outcomes of the writes
to come, and the writes that were made. -/
structure Flushing where
  buffer : List UInt8
  written : Nat := 0
  plan : List WriteOutcome
  writes : List Write := []

namespace Flushing

variable {l : Flushing} {e : FlushEnd}

def next (l : Flushing) : Write :=
  .next (l.buffer.drop l.written) l.plan

def advance (l : Flushing) : Flushing :=
  { l with
    written := l.written + l.next.count
    plan := l.plan.tail
    writes := l.writes ++ [l.next] }

theorem remaining_advance (more : l.written < l.buffer.length) :
    l.advance.plan.length + (l.advance.buffer.length - l.advance.written) <
      l.plan.length + (l.buffer.length - l.written) := by
  change l.plan.tail.length + (l.buffer.length - (l.written + l.next.count)) < _
  cases plan : l.plan with
  | nil =>
    have all : l.next.count = l.buffer.length - l.written := by
      simp [next, plan, Write.next, Write.count]
    simp only [all, List.tail_nil, List.length_nil]
    omega
  | cons o plan =>
    simp only [List.tail_cons, List.length_cons]
    omega

def run (l : Flushing) : FlushEnd × Flushing :=
  if l.written < l.buffer.length then
    match l.next.ending? with
    | some e => (e, l.advance)
    | none => l.advance.run
  else (.done, l)
termination_by l.plan.length + (l.buffer.length - l.written)
decreasing_by exact remaining_advance ‹_›

end Flushing

variable {bytes : List UInt8} {plan : List WriteOutcome}

theorem offer_of_ends {e : FlushEnd} (waits : bytes ≠ [])
    (ends : (Write.next bytes plan).ending? = some e) :
    offer bytes plan = ⟨[], bytes, [bytes.length], plan.tail, e⟩ := by
  obtain ⟨b, bytes, rfl⟩ := List.exists_cons_of_ne_nil waits
  match plan with
  | [] => cases ends
  | .accepts 0 :: plan =>
    rw [Write.ending?_of_count rfl, if_pos (Nat.zero_min _)] at ends
    cases ends
    rw [offer, List.tail_cons, List.length_cons]
  | .accepts (n + 1) :: plan =>
    rw [Write.ending?_of_count rfl, if_neg (by simp)] at ends
    cases ends
  | .fault f :: plan =>
    rw [Write.ending?_of_fault rfl] at ends
    rw [offer, List.tail_cons, List.length_cons]
    split at ends
    · cases ends
    · next other =>
      rw [if_neg other]
      split at ends <;> cases ends
      · next full => rw [if_pos full]
      · next hard => rw [if_neg hard]

theorem offer_of_goes (waits : bytes ≠ []) (goes : (Write.next bytes plan).ending? = none) :
    offer bytes plan =
      (offer (bytes.drop (Write.next bytes plan).count) plan.tail).after bytes.length
        (Write.next bytes plan).taken := by
  obtain ⟨b, bytes, rfl⟩ := List.exists_cons_of_ne_nil waits
  match plan with
  | [] => simp [offer, Write.next, Write.count, Write.taken, Flush.after]
  | .accepts 0 :: plan =>
    rw [Write.ending?_of_count rfl, if_pos (Nat.zero_min _)] at goes
    cases goes
  | .accepts (n + 1) :: plan =>
    have count : (Write.next (b :: bytes) (.accepts (n + 1) :: plan)).count =
        min n bytes.length + 1 := by
      simp [Write.next, Write.count]
    have taken : bytes.take (min n bytes.length) = bytes.take n :=
      List.take_eq_take_iff.mpr (by omega)
    have left : bytes.drop (min n bytes.length) = bytes.drop n :=
      List.drop_eq_drop_iff.mpr (by omega)
    rw [offer, Write.taken, count, Write.offered_next, List.drop_succ_cons, List.take_succ_cons,
      List.tail_cons, taken, left, List.length_cons]
  | .fault f :: plan =>
    rw [Write.ending?_of_fault rfl] at goes
    split at goes
    · next again =>
      rw [offer, if_pos again]
      rfl
    · split at goes <;> cases goes

namespace Flushing

variable {l : Flushing} {e : FlushEnd}

def start (s : OutputStream) (plan : List WriteOutcome) : Flushing :=
  { buffer := s.queued, plan }

theorem next_le (l : Flushing) : l.next.count ≤ l.buffer.length - l.written := by
  rw [← List.length_drop]
  exact Write.count_next_le ..

theorem advance_le (more : l.written < l.buffer.length) :
    l.advance.written ≤ l.advance.buffer.length := by
  have := l.next_le
  change l.written + l.next.count ≤ l.buffer.length
  omega

/-- The loop comes to what the flush of its bytes comes to, behind the writes it has made. -/
theorem run_eq (within : l.written ≤ l.buffer.length) :
    let f := offer (l.buffer.drop l.written) l.plan
    l.run.1 = f.ending ∧ l.run.2.buffer = l.buffer ∧ l.run.2.plan = f.unused ∧
      l.run.2.written = l.written + f.taken.length ∧
      l.run.2.writes.map (·.offered.length) = l.writes.map (·.offered.length) ++ f.offers := by
  fun_induction run l with
  | case1 l more e ends =>
    have waits : l.buffer.drop l.written ≠ [] := by simpa using more
    rw [offer_of_ends waits ends]
    refine ⟨rfl, rfl, rfl, ?_, ?_⟩
    · exact congrArg (l.written + ·) (Write.count_of_ending? ends)
    · simp [advance, next]
  | case2 l more goes ih =>
    have waits : l.buffer.drop l.written ≠ [] := by simpa using more
    have rest : offer (l.buffer.drop l.written) l.plan =
        (offer (l.advance.buffer.drop l.advance.written) l.advance.plan).after
          (l.buffer.drop l.written).length l.next.taken := by
      rw [offer_of_goes waits goes, List.drop_drop]
      rfl
    have length : l.next.taken.length = l.next.count := by
      rw [Write.taken, List.length_take, next, Write.offered_next,
        Nat.min_eq_left (Write.count_next_le ..)]
    obtain ⟨ending, buffer, unused, written, offers⟩ := ih (advance_le more)
    rw [rest]
    refine ⟨ending, buffer, unused, ?_, ?_⟩
    · rw [written, Flush.after, List.length_append, length, ← Nat.add_assoc]
      rfl
    · rw [offers]
      simp [advance, next, Flush.after]
  | case3 l more =>
    have none : l.buffer.drop l.written = [] := by simpa using more
    simp [none, offer]

theorem run_start (s : OutputStream) (plan : List WriteOutcome) :
    let f := (s.flush plan).1
    (start s plan).run.1 = f.ending ∧ (start s plan).run.2.buffer = s.queued ∧
      (start s plan).run.2.plan = f.unused ∧ (start s plan).run.2.written = f.taken.length ∧
      (start s plan).run.2.writes.map (·.offered.length) = f.offers := by
  simpa [start, flush] using run_eq (l := start s plan) (Nat.zero_le _)

/-- What the writes took is what was written, and each was offered all the rest. -/
structure Kept (l : Flushing) : Prop where
  within : l.written ≤ l.buffer.length
  taken : l.writes.flatMap Write.taken = l.buffer.take l.written
  offered : ∀ earlier w later, l.writes = earlier ++ w :: later →
    earlier.flatMap Write.taken ++ w.offered = l.buffer ∧ w.offered ≠ []

/-- How the loop has ended: everything is written, or the last write ended it, and nothing before. -/
inductive Ended (l : Flushing) : FlushEnd → Prop
  | done (goes : ∀ w ∈ l.writes, w.ending? = none) (all : l.written = l.buffer.length) :
      Ended l .done
  | last {before : List Write} {w : Write} {e : FlushEnd} (writes : l.writes = before ++ [w])
      (goes : ∀ v ∈ before, v.ending? = none) (ends : w.ending? = some e)
      (more : l.written < l.buffer.length) : Ended l e

theorem kept_start (s : OutputStream) (plan : List WriteOutcome) : Kept (start s plan) :=
  ⟨Nat.zero_le _, rfl, fun earlier w later split => by simp [start] at split⟩

theorem Kept.advance (k : Kept l) (more : l.written < l.buffer.length) : Kept l.advance := by
  refine ⟨advance_le more, ?_, ?_⟩
  · change (l.writes ++ [l.next]).flatMap Write.taken = l.buffer.take (l.written + l.next.count)
    rw [List.flatMap_append, k.taken, List.flatMap_singleton, List.take_add, Write.taken, next,
      Write.offered_next]
  · intro earlier w later split
    rcases List.eq_nil_or_concat later with rfl | ⟨later, v, rfl⟩
    · obtain ⟨same, new⟩ := List.append_inj' split rfl
      cases same
      cases new
      rw [k.taken, next, Write.offered_next]
      exact ⟨List.take_append_drop .., by simpa using more⟩
    · rw [List.concat_eq_append, ← List.cons_append, ← List.append_assoc] at split
      exact k.offered earlier w later (List.append_inj' split rfl).1

theorem Kept.run (k : Kept l) (goes : ∀ w ∈ l.writes, w.ending? = none) :
    Kept l.run.2 ∧ Ended l.run.2 l.run.1 := by
  fun_induction Flushing.run l with
  | case1 l more e ends =>
    have taken : l.advance.written = l.written :=
      congrArg (l.written + ·) (Write.count_of_ending? ends)
    exact ⟨k.advance more, .last rfl goes ends (Nat.lt_of_le_of_lt (Nat.le_of_eq taken) more)⟩
  | case2 l more on ih =>
    apply ih (k.advance more)
    intro w member
    rcases List.mem_append.mp member with member | member
    · exact goes w member
    · rw [List.mem_singleton.mp member]
      exact on
  | case3 l more => exact ⟨k, .done goes (Nat.le_antisymm k.within (Nat.not_lt.mp more))⟩

theorem Ended.goes (ended : Ended l e) {w : Write} (member : w ∈ l.writes.dropLast) :
    w.ending? = none := by
  cases ended with
  | done goes => exact goes w (List.dropLast_subset _ member)
  | last writes goes =>
    rw [writes, List.dropLast_concat] at member
    exact goes w member

/-- One write follows another just if this one took something or was interrupted, and left some. -/
theorem Kept.follows_iff (k : Kept l) (ended : Ended l e) {earlier later : List Write} {w : Write}
    (split : l.writes = earlier ++ w :: later) :
    later ≠ [] ↔ w.ending? = none ∧ earlier.flatMap Write.taken ++ w.taken ≠ l.buffer := by
  constructor
  · intro more
    obtain ⟨v, rest, rfl⟩ := List.exists_cons_of_ne_nil more
    have member : w ∈ l.writes.dropLast := by simp [split, List.dropLast_append_of_ne_nil]
    obtain ⟨all, some⟩ := k.offered (earlier ++ [w]) v rest (by simp [split])
    refine ⟨ended.goes member, ?_⟩
    intro taken
    rw [List.flatMap_append, List.flatMap_singleton, taken] at all
    exact some (List.self_eq_append_right.mp all.symm)
  · rintro ⟨goes, short⟩ rfl
    cases ended with
    | done _ all =>
      apply short
      rw [← List.flatMap_singleton Write.taken w, ← List.flatMap_append, ← split, k.taken, all,
        List.take_length]
    | last writes _ ends =>
      obtain ⟨-, same⟩ := List.append_inj' (split.symm.trans writes) rfl
      cases same
      rw [goes] at ends
      cases ends

theorem Ended.ok_iff (ended : Ended l e) : e.result = .ok () ↔
    l.buffer.drop l.written = [] ∨
      ∃ w, l.writes.getLast? = some w ∧ w.result = .error .wouldBlock := by
  cases ended with
  | done _ all => simp [FlushEnd.result, all]
  | @last _ w e writes _ ends more =>
    have waits : l.buffer.drop l.written ≠ [] := by simpa using more
    simp only [waits, writes, List.getLast?_concat, Option.some.injEq, false_or,
      exists_eq_left', ← Write.ending?_eq_blocked_iff, ends]
    cases e with
    | done => exact absurd ends Write.ending?_ne_done
    | blocked => simp [FlushEnd.result]
    | failed f => simp [FlushEnd.result]

theorem Ended.error_iff (ended : Ended l e) (f : Fault) : e.result = .error f ↔
    ∃ w, l.writes.getLast? = some w ∧ (w.result = .ok 0 ∧ f = .writeZero ∨
      w.result = .error f ∧ f ≠ .interrupted ∧ f ≠ .wouldBlock) := by
  simp only [← Write.ending?_eq_failed_iff]
  cases ended with
  | done goes =>
    constructor
    · intro failed
      cases failed
    · rintro ⟨w, last, ends⟩
      rw [goes w (List.mem_of_getLast? last)] at ends
      cases ends
  | @last _ w e writes _ ends more =>
    simp only [writes, List.getLast?_concat, Option.some.injEq, exists_eq_left', ends]
    cases e <;> simp [FlushEnd.result]

end Flushing

theorem length_offers_le (bytes : List UInt8) (plan : List WriteOutcome) :
    (offer bytes plan).offers.length ≤ plan.length + 1 := by
  fun_induction offer bytes plan with
  | case1 | case2 | case3 | case6 | case7 => simp
  | case4 b bytes n plan ih | case5 b bytes plan ih => simpa [Flush.after] using ih

inductive OutputStep where
  | writeByte (b : UInt8)
  | write (bytes : List UInt8)
  | flush (plan : List WriteOutcome)

def OutputStep.put : OutputStep → List UInt8
  | .writeByte b => [b]
  | .write bytes => bytes
  | .flush _ => []

def perform (s : OutputStream) : OutputStep → List UInt8 × OutputStream
  | .writeByte b => ([], s.writeByte b)
  | .write bytes => ([], s.write bytes)
  | .flush plan => ((s.flush plan).1.taken, (s.flush plan).2)

def performAll (s : OutputStream) : List OutputStep → List UInt8 × OutputStream
  | [] => ([], s)
  | step :: steps =>
    let (taken, s) := s.perform step
    let (rest, s) := s.performAll steps
    (taken ++ rest, s)

theorem taken_append_queued (s : OutputStream) (plan : List WriteOutcome) :
    (s.flush plan).1.taken ++ (s.flush plan).2.queued = s.queued := by
  rw [queued_flush]
  exact taken_append_left ..

theorem conserved_perform (s : OutputStream) (step : OutputStep) :
    (s.perform step).1 ++ (s.perform step).2.queued = s.queued ++ step.put := by
  cases step with
  | writeByte b => exact s.queued_write [b]
  | write bytes => exact s.queued_write bytes
  | flush plan => rw [perform, taken_append_queued, OutputStep.put, List.append_nil]

theorem conserved_performAll (s : OutputStream) (steps : List OutputStep) :
    (s.performAll steps).1 ++ (s.performAll steps).2.queued =
      s.queued ++ steps.flatMap OutputStep.put := by
  induction steps generalizing s with
  | nil => exact (List.append_nil _).symm
  | cons step steps ih =>
    calc
      (s.perform step).1 ++ ((s.perform step).2.performAll steps).1 ++
            ((s.perform step).2.performAll steps).2.queued
        = (s.perform step).1 ++ ((s.perform step).2.queued ++ steps.flatMap OutputStep.put) := by
          rw [List.append_assoc, ih]
      _ = s.queued ++ (step :: steps).flatMap OutputStep.put := by
          rw [← List.append_assoc, conserved_perform, List.append_assoc, List.flatMap_cons]

/-- A flush ends, offers each write all that is left, goes on just behind one that took something or
was interrupted, and answers as the last one says. In a whole run what was taken and what waits is
what was queued. -/
theorem flushes_run (s : OutputStream) :
    (∀ plan : List WriteOutcome,
      let f := (s.flush plan).1
      let left := (s.flush plan).2.queued
      let ended := (Flushing.start s plan).run
      let writes := ended.2.writes
      (ended.1 = f.ending ∧ ended.2.buffer.drop ended.2.written = left ∧ ended.2.plan = f.unused ∧
        writes.flatMap Write.taken = f.taken ∧ writes.map (·.offered.length) = f.offers ∧
        writes.length ≤ plan.length + 1) ∧
      f.taken ++ left = s.queued ∧
      (∀ earlier w later, writes = earlier ++ w :: later →
        earlier.flatMap Write.taken ++ w.offered = s.queued ∧ w.offered ≠ [] ∧
          (later ≠ [] ↔ w.ending? = none ∧ earlier.flatMap Write.taken ++ w.taken ≠ s.queued)) ∧
      (f.ending.result = .ok () ↔
        left = [] ∨ ∃ w, writes.getLast? = some w ∧ w.result = .error .wouldBlock) ∧
      (∀ g, f.ending.result = .error g ↔ ∃ w, writes.getLast? = some w ∧
        (w.result = .ok 0 ∧ g = .writeZero ∨
          w.result = .error g ∧ g ≠ .interrupted ∧ g ≠ .wouldBlock)) ∧
      (s.queued = [] → writes = [])) ∧
    ∀ steps : List OutputStep, (s.performAll steps).1 ++ (s.performAll steps).2.queued =
      s.queued ++ steps.flatMap OutputStep.put := by
  refine ⟨?_, s.conserved_performAll⟩
  intro plan f left ended writes
  have conserved : f.taken ++ left = s.queued := s.taken_append_queued plan
  obtain ⟨ending, buffer, unused, written, offers⟩ := Flushing.run_start s plan
  obtain ⟨kept, how⟩ := (Flushing.kept_start s plan).run (fun w member => nomatch member)
  have taken : writes.flatMap Write.taken = f.taken := by
    rw [kept.taken, buffer, written, ← conserved, List.take_left]
  have rest : ended.2.buffer.drop ended.2.written = left := by
    rw [buffer, written, ← conserved, List.drop_left]
  refine ⟨⟨ending, rest, unused, taken, offers, ?_⟩, conserved, ?_, ?_, ?_, ?_⟩
  · rw [← List.length_map (·.offered.length), offers]
    exact length_offers_le ..
  · intro earlier w later split
    obtain ⟨all, some⟩ := kept.offered earlier w later split
    rw [← buffer]
    exact ⟨all, some, kept.follows_iff how split⟩
  · rw [← rest, ← ending]
    exact how.ok_iff
  · intro g
    rw [← ending]
    exact how.error_iff g
  · intro empty
    have silent : writes.map (·.offered.length) = [] := by
      rw [offers, flush, empty, offer]
    exact List.map_eq_nil_iff.mp silent

/-- A write is interrupted and a later one fails behind two that took three bytes of five; the rest
goes with the flushes that follow. -/
theorem flushes_run_retried :
    let s := ofQueued [1, 2, 3, 4, 5]
    let plan : List WriteOutcome :=
      [.accepts 2, .fault .interrupted, .accepts 1, .fault .brokenPipe, .accepts 9]
    let steps : List OutputStep :=
      [.flush plan, .writeByte 6, .flush [.accepts 1, .fault .wouldBlock], .write [7, 8],
        .flush [.accepts 9]]
    (s.flush plan).1.ending = .failed .brokenPipe ∧
      (s.flush plan).1.taken ++ (s.flush plan).2.queued = [1, 2, 3, 4, 5] ∧
      (∃ w, (Flushing.start s plan).run.2.writes.getLast? = some w ∧
        w.result = .error .brokenPipe) ∧
      (s.performAll steps).2.queued = [] ∧ (s.performAll steps).1 = [1, 2, 3, 4, 5, 6, 7, 8] := by
  intro s plan steps
  have failed : (s.flush plan).1.ending = .failed .brokenPipe := by decide +kernel
  have sent : (s.performAll steps).2.queued = [] := by decide +kernel
  obtain ⟨each, all⟩ := flushes_run s
  obtain ⟨-, conserved, -, -, errors, -⟩ := each plan
  have all := all steps
  rw [sent, List.append_nil] at all
  refine ⟨failed, conserved, ?_, sent, all⟩
  obtain ⟨w, last, ⟨-, wrong⟩ | ⟨result, -⟩⟩ := (errors .brokenPipe).mp (by rw [failed]; rfl)
  · cases wrong
  · exact ⟨w, last, result⟩

end OutputStream

end RenderBroker
