import RenderBroker.Proofs.Callbacks

namespace RenderBroker

variable {τ ω : Type}

open Occurrence

/-- The whole blocks of `k` bytes that some bytes begin with. -/
def blocks (k : Nat) (bytes : List UInt8) : List (List UInt8) :=
  (List.range (bytes.length / k)).map fun i => (bytes.drop (i * k)).take k

/-- What a frame does to a tag, and whether the connection ends with it. -/
abbrev FrameAction (τ : Type) :=
  τ → List UInt8 → τ × Bool

variable {act : FrameAction τ} {k : Nat}

/-- The frames that are handled: all up to the first that the connection ends with. -/
def handledFrames (act : FrameAction τ) : τ → List (List UInt8) → List (List UInt8)
  | _, [] => []
  | tag, f :: fs => f :: if (act tag f).2 then [] else handledFrames act (act tag f).1 fs

def outlived (act : FrameAction τ) : τ → List (List UInt8) → Option τ
  | tag, [] => some tag
  | tag, f :: fs => if (act tag f).2 then none else outlived act (act tag f).1 fs

theorem blocks_of_short {bytes : List UInt8} (short : bytes.length < k) : blocks k bytes = [] := by
  rw [blocks, Nat.div_eq_of_lt short]
  rfl

theorem blocks_append {f : List UInt8} (pos : 0 < k) (whole : f.length = k) (bytes : List UInt8) :
    blocks k (f ++ bytes) = f :: blocks k bytes := by
  have count : (f ++ bytes).length / k = bytes.length / k + 1 := by
    rw [List.length_append, whole, Nat.add_comm, Nat.add_div_right _ pos]
  rw [blocks, count, List.range_succ_eq_map, List.map_cons, List.map_map]
  congr 1
  · rw [Nat.zero_mul, List.drop_zero, List.take_left' whole]
  · apply List.map_congr_left
    intro i _
    have skipped : (i + 1) * k = f.length + i * k := by
      rw [whole, Nat.add_mul, Nat.one_mul, Nat.add_comm]
    rw [Function.comp_apply, skipped, ← List.drop_drop, List.drop_left]

theorem blocks_flatten_append {fs : List (List UInt8)} (pos : 0 < k)
    (whole : ∀ f ∈ fs, f.length = k) (bytes : List UInt8) :
    blocks k (fs.flatten ++ bytes) = fs ++ blocks k bytes := by
  induction fs with
  | nil => rfl
  | cons f fs ih =>
    obtain ⟨this, others⟩ := List.forall_mem_cons.mp whole
    rw [List.flatten_cons, List.append_assoc, blocks_append pos this, ih others, List.cons_append]

theorem handledFrames_append {tag u : τ} {fs : List (List UInt8)} (lasts : outlived act tag fs = some u)
    (gs : List (List UInt8)) : handledFrames act tag (fs ++ gs) = fs ++ handledFrames act u gs := by
  induction fs generalizing tag with
  | nil =>
    cases lasts
    rfl
  | cons f fs ih =>
    rw [outlived] at lasts
    split at lasts
    · cases lasts
    · next goes => rw [List.cons_append, handledFrames, if_neg goes, ih lasts, List.cons_append]

theorem outlived_append {tag u : τ} {fs : List (List UInt8)} (lasts : outlived act tag fs = some u)
    {f : List UInt8} (goes : (act u f).2 = false) :
    outlived act tag (fs ++ [f]) = some (act u f).1 := by
  induction fs generalizing tag with
  | nil =>
    cases lasts
    rw [List.nil_append, outlived, if_neg (by simp [goes]), outlived]
  | cons g fs ih =>
    rw [outlived] at lasts
    split at lasts
    · cases lasts
    · next first => rw [List.cons_append, outlived, if_neg first, ih lasts]

/-- The frames of some bytes that are due on a connection whose client was `first` when it was
opened. -/
def dueFrames (act : FrameAction τ) (k : Nat) (first : Client τ) (bytes : List UInt8) :
    List (List UInt8) :=
  if first.killed then [] else handledFrames act first.tag (blocks k bytes)

/-- A handler that does nothing while less than a frame is unread, and else takes one frame off, and
does what it says. It leaves every buffer in order. -/
structure Framing (h : Handler τ ω) (inputCapacity outputCapacity k : Nat) (act : FrameAction τ) :
    Prop where
  frame_pos : 0 < k
  opened : ∀ w n d, ∃ w' back, h.opened w (h.guest inputCapacity outputCapacity n d) =
    some (w', back) ∧ back.input = some (.ofCapacity inputCapacity)
  sound : ∀ {w c e w' back s}, h.request w c = (e, w', back) → c.input = some s → s.Usable →
    ∃ t, back.input = some t ∧ t.Usable
  short : ∀ {w c e w' back}, h.request w c = (e, w', back) → c.available < k →
    e = .idle ∧ back.unread = c.unread ∧ back.tag = c.tag ∧ back.killed = c.killed
  whole : ∀ {w c e w' back}, h.request w c = (e, w', back) → k ≤ c.available →
    back.unread = c.unread.drop k ∧ back.tag = (act c.tag (c.unread.take k)).1 ∧
      if (act c.tag (c.unread.take k)).2 then e ≠ .panicked ∧ (back.killed = true ∨ e = .failed)
      else e = .served ∧ back.killed = c.killed

theorem Framing.calm {h : Handler τ ω} {inputCapacity outputCapacity : Nat}
    (framing : Framing h inputCapacity outputCapacity k act) :
    h.Calm inputCapacity outputCapacity := by
  constructor
  · intro w n d
    obtain ⟨w', back, asked, -⟩ := framing.opened w n d
    simp [asked]
  · intro w c
    rcases asked : h.request w c with ⟨e, w', back⟩
    rcases Nat.lt_or_ge c.available k with short | whole
    · obtain ⟨rfl, -⟩ := framing.short asked short
      simp
    · obtain ⟨-, -, ends⟩ := framing.whole asked whole
      split at ends
      · exact ends.1
      · simp [ends.1]

def Occurrence.frame? : Occurrence τ ω → Option (List UInt8)
  | .requested _ before after =>
    let taken := before.client.unread.take (before.client.available - after.client.available)
    if taken.isEmpty then none else some taken
  | _ => none

/-- The frames that were consumed, in order. -/
def frames (os : List (Occurrence τ ω)) : List (List UInt8) :=
  os.reverse.filterMap frame?

theorem frames_cons (o : Occurrence τ ω) (os : List (Occurrence τ ω)) :
    frames (o :: os) = frames os ++ o.frame?.toList := by
  cases h : o.frame? <;> simp [frames, h]

theorem frames_cons_quiet {o : Occurrence τ ω} (quiet : o.frame? = none)
    (os : List (Occurrence τ ω)) : frames (o :: os) = frames os := by
  rw [frames_cons, quiet, Option.toList_none, List.append_nil]

/-- What is consumed and what is unread of a client are the bytes that it has received. -/
def Whole (c : Client τ) (os : List (Occurrence τ ω)) : Prop :=
  (frames os).flatten ++ c.unread = received os

/-- Every request finds and leaves its client whole, the end finds it whole, and every read is
offered free space. -/
structure Faithful (os : List (Occurrence τ ω)) : Prop where
  requests : ∀ e before after earlier, .requested e before after :: earlier <:+ os →
    Whole before.client earlier ∧ Whole after.client (.requested e before after :: earlier)
  closings : ∀ before after earlier, .closed before after :: earlier <:+ os →
    Whole before.client earlier
  reads : ∀ n offered result, .read n offered result ∈ os → ∃ space, 0 < space ∧ offered = some space

theorem Faithful.cons {os : List (Occurrence τ ω)} (faithful : Faithful os) {o : Occurrence τ ω}
    (request : ∀ e before after, o = .requested e before after →
      Whole before.client os ∧ Whole after.client (o :: os))
    (closing : ∀ before after, o = .closed before after → Whole before.client os)
    (read : ∀ n offered result, o = .read n offered result →
      ∃ space, 0 < space ∧ offered = some space) : Faithful (o :: os) := by
  constructor
  · intro e before after earlier part
    rcases List.suffix_cons_iff.mp part with same | part
    · cases same
      exact request e before after rfl
    · exact faithful.requests e before after earlier part
  · intro before after earlier part
    rcases List.suffix_cons_iff.mp part with same | part
    · cases same
      exact closing before after rfl
    · exact faithful.closings before after earlier part
  · intro n offered result noted
    rcases List.mem_cons.mp noted with same | noted
    · exact read n offered result same.symm
    · exact faithful.reads n offered result noted

theorem Faithful.nil : Faithful ([] : List (Occurrence τ ω)) :=
  ⟨fun _ _ _ _ part => (nomatch List.suffix_nil.mp part),
    fun _ _ _ part => (nomatch List.suffix_nil.mp part), nofun⟩

variable {first c : Client τ} {os : List (Occurrence τ ω)}

structure Buffered (k : Nat) (c : Client τ) (os : List (Occurrence τ ω)) : Prop where
  usable : ∃ s, c.input = some s ∧ s.Usable
  whole : Whole c os
  lengths : ∀ f ∈ frames os, f.length = k
  faithful : Faithful os

structure Going (act : FrameAction τ) (k : Nat) (first c : Client τ)
    (os : List (Occurrence τ ω)) : Prop where
  buffered : Buffered k c os
  unmarked : first.killed = false ∧ c.killed = false
  lasts : outlived act first.tag (frames os) = some c.tag

/-- The client was marked when it was opened, and nothing is consumed. -/
structure Marked (k : Nat) (first c : Client τ) (os : List (Occurrence τ ω)) : Prop where
  buffered : Buffered k c os
  marked : first.killed = true ∧ c.killed = true
  nothing : frames os = []

structure Handled (act : FrameAction τ) (k : Nat) (first c : Client τ)
    (os : List (Occurrence τ ω)) : Prop where
  buffered : Buffered k c os
  frames_eq : frames os = dueFrames act k first (received os)

theorem Marked.handled (m : Marked k first c os) : Handled act k first c os := by
  constructor
  · exact m.buffered
  · rw [dueFrames, if_pos m.marked.1, m.nothing]

theorem Going.handled (g : Going act k first c os) (pos : 0 < k) (short : c.unread.length < k) :
    Handled act k first c os := by
  constructor
  · exact g.buffered
  · have arrived : received os = (frames os).flatten ++ c.unread := g.buffered.whole.symm
    have all := handledFrames_append g.lasts []
    rw [List.append_nil] at all
    rw [dueFrames, if_neg (by simp [g.unmarked.1]), arrived,
      blocks_flatten_append pos g.buffered.lengths, blocks_of_short short, List.append_nil, all,
      handledFrames, List.append_nil]

theorem bytes_read (n : Nat) (offered : Option Nat) (result : Except Fault (List UInt8)) :
    (Occurrence.read n offered result : Occurrence τ ω).bytes = result.toOption.getD [] := by
  cases result <;> rfl

theorem Buffered.receive (b : Buffered k c os) (r : ReadOutcome) :
    let got := c.receive r
    Buffered k got.client (.read c.serial got.offered got.result :: os) ∧
      got.client.unread = c.unread ++ got.result.toOption.getD [] := by
  intro got
  obtain ⟨s, there, usable⟩ := b.usable
  have filled := usable.fillGrowing r
  have made : got = ⟨(s.fillGrowing r).result.mapError InputStream.Refusal.kind,
      (s.fillGrowing r).offered, { c with input := some (s.fillGrowing r).stream }⟩ := by
    dsimp only [got]
    rw [Client.receive, there]
  have delivered : got.result.toOption = (s.fillGrowing r).result.toOption := by
    rw [made]
    cases (s.fillGrowing r).result <;> rfl
  have unread : got.client.unread = c.unread ++ got.result.toOption.getD [] := by
    rw [delivered, made, Client.unread, Client.unread, there]
    exact filled.unread
  constructor
  · constructor
    · rw [made]
      exact ⟨_, rfl, filled.usable⟩
    · rw [Whole, frames_cons_quiet rfl, unread, ← List.append_assoc, b.whole, received_cons,
        bytes_read]
    · rw [frames_cons_quiet rfl]
      exact b.lengths
    · apply b.faithful.cons (by simp) (by simp)
      intro n offered result same
      cases same
      obtain ⟨space, pos, offered, -⟩ := filled.offered
      rw [made]
      exact ⟨space, pos, offered⟩
  · exact unread

theorem frame?_requested {e : RequestEnd} {before after : Moment τ ω} {n : Nat}
    (rest : after.client.unread = before.client.unread.drop n)
    (enough : n ≤ before.client.available) :
    (Occurrence.requested e before after).frame? =
      if n = 0 then none else some (before.client.unread.take n) := by
  have length := before.client.length_unread
  have left : before.client.available - after.client.available = n := by
    rw [← after.client.length_unread, rest, List.length_drop, length]
    omega
  rw [frame?, left]
  by_cases none : n = 0
  · rw [if_pos none, none]
    rfl
  · have some : (before.client.unread.take n).isEmpty = false := by
      rw [List.isEmpty_eq_false_iff, ← List.length_pos_iff, List.length_take, length]
      omega
    rw [if_neg none, some]
    rfl

theorem Buffered.request {back : Client τ} {n : Nat} (b : Buffered k c os) (e : RequestEnd)
    (w w' : ω) (sound : ∀ s, c.input = some s → s.Usable →
      ∃ t, back.input = some t ∧ t.Usable)
    (rest : back.unread = c.unread.drop n) (enough : n ≤ c.available) (size : n = 0 ∨ n = k) :
    let os' := .requested e ⟨w, c⟩ ⟨w', c.returned back⟩ :: os
    Buffered k (c.returned back) os' ∧
      frames os' = frames os ++ if n = 0 then [] else [c.unread.take n] := by
  intro os'
  have frame : frames os' = frames os ++ if n = 0 then [] else [c.unread.take n] := by
    rw [frames_cons, frame?_requested (n := n) rest enough]
    split <;> rfl
  have whole : Whole (c.returned back) os' := by
    have joined : (frames os').flatten = (frames os).flatten ++ c.unread.take n := by
      rw [frame, List.flatten_append]
      by_cases none : n = 0 <;> simp [none]
    rw [Whole, joined, Client.unread_returned, rest, List.append_assoc, List.take_append_drop,
      b.whole, received_cons_silent rfl]
  have lengths : ∀ f ∈ frames os', f.length = k := by
    intro f hf
    rw [frame] at hf
    rcases List.mem_append.mp hf with hf | hf
    · exact b.lengths f hf
    · split at hf
      · cases hf
      · next some =>
        rw [List.mem_singleton.mp hf, List.length_take, c.length_unread]
        omega
  have faithful : Faithful os' := by
    apply b.faithful.cons
    · intro e before after same
      cases same
      exact ⟨b.whole, whole⟩
    · simp
    · simp
  obtain ⟨s, there, usable⟩ := b.usable
  exact ⟨⟨sound s there usable, whole, lengths, faithful⟩, frame⟩

/-- What a request comes to on a connection that goes on, by how it ends. -/
inductive Answered (act : FrameAction τ) (k : Nat) (first c : Client τ)
    (os : List (Occurrence τ ω)) : RequestEnd → Prop
  | idle (going : Going act k first c os) (short : c.unread.length < k) :
      Answered act k first c os .idle
  | served (going : Going act k first c os) : Answered act k first c os .served
  | marked {e : RequestEnd} (calm : e ≠ .panicked) (handled : Handled act k first c os)
      (killed : c.killed = true) : Answered act k first c os e
  | failed (handled : Handled act k first c os) : Answered act k first c os .failed

section Requests

variable {h : Handler τ ω} {inputCapacity outputCapacity : Nat} {e : RequestEnd} {w w' : ω}
  {back : Client τ}

/-- The last frame of a connection is handled like those before it, and what is unread behind it
makes no difference. -/
theorem Going.ends (g : Going act k first c os) (pos : 0 < k) {o : Occurrence τ ω}
    (buffered : Buffered k back (o :: os)) {f : List UInt8}
    (consumed : frames (o :: os) = frames os ++ [f]) (stops : (act c.tag f).2 = true) :
    Handled act k first back (o :: os) := by
  have arrived : received (o :: os) = (frames (o :: os)).flatten ++ back.unread :=
    buffered.whole.symm
  constructor
  · exact buffered
  · rw [dueFrames, if_neg (by simp [g.unmarked.1]), arrived,
      blocks_flatten_append pos buffered.lengths, consumed, List.append_assoc,
      handledFrames_append g.lasts, List.singleton_append, handledFrames, if_pos stops]

theorem Going.request (framing : Framing h inputCapacity outputCapacity k act)
    (g : Going act k first c os) (asked : h.request w c = (e, w', back)) :
    Answered act k first (c.returned back)
      (.requested e ⟨w, c⟩ ⟨w', c.returned back⟩ :: os) e := by
  have sound (s : InputStream) (there : c.input = some s) (usable : s.Usable) :=
    framing.sound asked there usable
  rcases Nat.lt_or_ge c.available k with short | enough
  · obtain ⟨rfl, rest, tag, killed⟩ := framing.short asked short
    obtain ⟨buffered, same⟩ := g.buffered.request .idle w w' sound
      (rest.trans List.drop_zero.symm) (Nat.zero_le _) (.inl rfl)
    rw [if_pos rfl, List.append_nil] at same
    apply Answered.idle
    · constructor
      · exact buffered
      · simp [killed, g.unmarked]
      · rw [same]
        exact g.lasts.trans (congrArg some tag.symm)
    · rwa [Client.unread_returned, rest, c.length_unread]
  · have pos := framing.frame_pos
    obtain ⟨rest, tag, ends⟩ := framing.whole asked enough
    obtain ⟨buffered, consumed⟩ := g.buffered.request e w w' sound rest enough (.inr rfl)
    rw [if_neg (Nat.ne_of_gt pos)] at consumed
    cases stops : (act c.tag (c.unread.take k)).2 with
    | false =>
      rw [if_neg (by simp [stops])] at ends
      obtain ⟨rfl, killed⟩ := ends
      apply Answered.served
      constructor
      · exact buffered
      · simp [killed, g.unmarked]
      · rw [consumed, outlived_append g.lasts stops]
        exact congrArg some tag.symm
    | true =>
      rw [if_pos stops] at ends
      have handled := g.ends pos buffered consumed stops
      obtain ⟨calm, killed | rfl⟩ := ends
      · exact .marked calm handled (by simp [killed])
      · exact .failed handled

end Requests

structure Spent (act : FrameAction τ) (k : Nat) (first c : Client τ)
    (os : List (Occurrence τ ω)) : Prop where
  handled : Handled act k first c os
  going : c.killed = false → Going act k first c os ∧ c.unread.length < k

theorem Handled.spent (d : Handled act k first c os) (killed : c.killed = true) :
    Spent act k first c os := by
  constructor
  · exact d
  · intro unmarked
    rw [killed] at unmarked
    cases unmarked

theorem Going.spent (g : Going act k first c os) (pos : 0 < k) (short : c.unread.length < k) :
    Spent act k first c os :=
  ⟨g.handled pos short, fun _ => ⟨g, short⟩⟩

variable {h : Handler τ ω} {inputCapacity outputCapacity : Nat} {s t : Session τ ω}

theorem Framing.drain (framing : Framing h inputCapacity outputCapacity k act)
    (g : Going act k first s.client (s.history ++ os)) :
    ∃ t, (s.drain h = (.keep, t) ∧ Spent act k first t.client (t.history ++ os)) ∨
      (s.drain h = (.tearDown, t) ∧ Handled act k first t.client (t.history ++ os)) := by
  fun_induction Session.drain h s with
  | case1 s marked =>
    rw [g.unmarked.2] at marked
    cases marked
  | case2 s unmarked w back asked =>
    cases g.request framing asked with
    | idle going short => exact ⟨_, .inl ⟨rfl, going.spent framing.frame_pos short⟩⟩
    | marked _ handled killed => exact ⟨_, .inl ⟨rfl, handled.spent killed⟩⟩
  | case3 s unmarked w back asked ih =>
    cases g.request framing asked with
    | served going => exact ih going
    | marked _ handled killed =>
      exact ⟨_, .inl ⟨Session.drain_marked h killed, handled.spent killed⟩⟩
  | case4 s unmarked w back asked =>
    cases g.request framing asked with
    | marked _ handled => exact ⟨_, .inr ⟨rfl, handled⟩⟩
    | failed handled => exact ⟨_, .inr ⟨rfl, handled⟩⟩
  | case5 s unmarked w back asked =>
    cases g.request framing asked with
    | marked calm => exact absurd rfl calm

theorem Client.input_flush (c : Client τ) (plan : List WriteOutcome) :
    (c.flush plan).2.input = c.input := by
  rw [flush]
  split <;> rfl

theorem Client.unread_flush (c : Client τ) (plan : List WriteOutcome) :
    (c.flush plan).2.unread = c.unread := by
  rw [unread, input_flush, unread]

theorem Buffered.flush (b : Buffered k c os) (plan : List WriteOutcome) (n : Nat)
    (f : OutputStream.Flush) : Buffered k (c.flush plan).2 (.flushed n f :: os) := by
  obtain ⟨usable, whole, lengths, faithful⟩ := b
  constructor
  · rwa [c.input_flush]
  · rwa [Whole, c.unread_flush, received_cons_silent rfl, frames_cons_quiet rfl]
  · rwa [frames_cons_quiet rfl]
  · exact faithful.cons (by simp) (by simp) (by simp)

theorem Spent.wrote (q : Spent act k first s.client (s.history ++ os)) (plan : List WriteOutcome) :
    Spent act k first (s.wrote plan).client ((s.wrote plan).history ++ os) := by
  have same : frames ((s.wrote plan).history ++ os) = frames (s.history ++ os) :=
    frames_cons_quiet rfl _
  have arrived : received ((s.wrote plan).history ++ os) = received (s.history ++ os) :=
    received_cons_silent rfl _
  have tag : (s.wrote plan).client.tag = s.client.tag := s.client.tag_flush plan
  have unread : (s.wrote plan).client.unread = s.client.unread := s.client.unread_flush plan
  constructor
  · constructor
    · exact q.handled.buffered.flush plan _ _
    · rw [same, arrived]
      exact q.handled.frames_eq
  · intro unmarked
    obtain ⟨going, short⟩ := q.going ((s.client.killed_flush plan).symm.trans unmarked)
    constructor
    · constructor
      · exact going.buffered.flush plan _ _
      · exact ⟨going.unmarked.1, unmarked⟩
      · rw [same, tag]
        exact going.lasts
    · rwa [unread]

/-- Between events less than a frame is unread of a client, whether it goes on or was marked when it
was opened. -/
structure Resting (act : FrameAction τ) (k : Nat) (first c : Client τ)
    (os : List (Occurrence τ ω)) : Prop where
  stands : Going act k first c os ∨ Marked k first c os
  short : c.unread.length < k

theorem Resting.spent (r : Resting act k first c os) (pos : 0 < k) : Spent act k first c os := by
  rcases r.stands with going | marked
  · exact going.spent pos r.short
  · exact marked.handled.spent marked.marked.2

theorem Spent.finish (q : Spent act k first s.client (s.history ++ os)) {plan : List WriteOutcome}
    {v : Verdict} (finished : s.finish plan = (v, t)) :
    Handled act k first t.client (t.history ++ os) ∧
      (v = .keep → Resting act k first t.client (t.history ++ os)) := by
  have kept {u : Session τ ω} (q : Spent act k first u.client (u.history ++ os))
      (same : (if u.client.killed then Verdict.tearDown else .keep, u) = (v, t)) :
      Handled act k first t.client (t.history ++ os) ∧
        (v = .keep → Resting act k first t.client (t.history ++ os)) := by
    cases same
    refine ⟨q.handled, ?_⟩
    intro keep
    obtain ⟨going, short⟩ := q.going (by simpa using keep)
    exact ⟨.inl going, short⟩
  rw [Session.finish, Session.flush_eq] at finished
  by_cases queued : s.client.hasQueued = true
  · rw [if_pos queued] at finished
    cases ended : (s.client.flush plan).1.ending with
    | failed f =>
      rw [ended] at finished
      cases finished
      exact ⟨(q.wrote plan).handled, by simp⟩
    | _ =>
      rw [ended] at finished
      exact kept (q.wrote plan) finished
  · rw [if_neg queued] at finished
    exact kept q finished

theorem Resting.heard (rest : Resting act k first s.client (s.history ++ os)) (r : ReadOutcome) :
    (Going act k first (s.heard r).client ((s.heard r).history ++ os) ∨
        Marked k first (s.heard r).client ((s.heard r).history ++ os)) ∧
      (s.heard r).client.unread =
        s.client.unread ++ (s.client.receive r).result.toOption.getD [] := by
  have killed := s.client.killed_receive r
  have same : frames ((s.heard r).history ++ os) = frames (s.history ++ os) :=
    frames_cons_quiet rfl _
  rcases rest.stands with ⟨buffered, unmarked, lasts⟩ | ⟨buffered, marked, nothing⟩
  · obtain ⟨after, unread⟩ := buffered.receive r
    have tag : (s.heard r).client.tag = s.client.tag := s.client.tag_receive r
    refine ⟨.inl ⟨after, ⟨unmarked.1, killed.trans unmarked.2⟩, ?_⟩, unread⟩
    rw [same, tag]
    exact lasts
  · obtain ⟨after, unread⟩ := buffered.receive r
    exact ⟨.inr ⟨after, ⟨marked.1, killed.trans marked.2⟩, same.trans nothing⟩, unread⟩

theorem Framing.receive (framing : Framing h inputCapacity outputCapacity k act)
    (rest : Resting act k first s.client (s.history ++ os)) (r : ReadOutcome) :
    ∃ t, (s.receive h r = (.keep, t) ∧ Spent act k first t.client (t.history ++ os)) ∨
      (s.receive h r = (.tearDown, t) ∧ Handled act k first t.client (t.history ++ os)) := by
  obtain ⟨stands, unread⟩ := rest.heard r
  have pos := framing.frame_pos
  have silent (none : (s.client.receive r).result.toOption.getD [] = []) :
      Spent act k first (s.heard r).client ((s.heard r).history ++ os) := by
    rw [none, List.append_nil] at unread
    exact Resting.spent ⟨stands, unread ▸ rest.short⟩ pos
  rw [Session.receive_eq]
  cases result : (s.client.receive r).result with
  | error f =>
    have spent := silent (by rw [result]; rfl)
    cases patient : f.isTransient with
    | true => exact ⟨_, .inl ⟨by simp [patient], spent⟩⟩
    | false => exact ⟨_, .inr ⟨by simp [patient], spent.handled⟩⟩
  | ok bytes =>
    cases bytes with
    | nil => exact ⟨_, .inr ⟨rfl, (silent (by rw [result]; rfl)).handled⟩⟩
    | cons b bytes =>
      rcases stands with going | marked
      · exact framing.drain going
      · exact ⟨_, .inl ⟨Session.drain_marked h marked.marked.2,
          marked.handled.spent marked.marked.2⟩⟩

/-- An event leaves its client resting, or with all its frames handled. -/
theorem Framing.serve (framing : Framing h inputCapacity outputCapacity k act)
    (rest : Resting act k first s.client (s.history ++ os)) {flags : Readiness} {r : ReadOutcome}
    {plan : List WriteOutcome} {v : Verdict} (served : s.serve h flags r plan = (v, t)) :
    Handled act k first t.client (t.history ++ os) ∧
      (v = .keep → Resting act k first t.client (t.history ++ os)) := by
  have spent := rest.spent framing.frame_pos
  rw [Session.serve] at served
  split at served
  · obtain ⟨u, ⟨heard, spent⟩ | ⟨heard, handled⟩⟩ := framing.receive rest r
    · rw [heard] at served
      exact spent.finish served
    · rw [heard] at served
      cases served
      exact ⟨handled, by simp⟩
  · split at served
    · exact spent.finish served
    · split at served
      · cases served
        exact ⟨spent.handled, by simp⟩
      · cases served
        exact ⟨spent.handled, fun _ => rest⟩

/-- How a connection stands with what it has received: it rests while it is open, and in the end its
frames are handled. -/
def Framed (act : FrameAction τ) (k : Nat) (os : List (Occurrence τ ω)) : Option (Client τ) → Prop
  | some c => ∃ first, (∀ before after, .opened before after ∈ os → after.client = first) ∧
      Resting act k first c os
  | none => Faithful os ∧ ∀ before after, .opened before after ∈ os →
      frames os = dueFrames act k after.client (received os)

theorem Handled.close (d : Handled act k first c os)
    (earlier : ∀ before after, .opened before after ∈ os → after.client = first)
    (w after : ω) : Framed act k (.closed ⟨w, c⟩ after :: os) none := by
  constructor
  · refine d.buffered.faithful.cons (by simp) ?_ (by simp)
    intro before after same
    cases same
    exact d.buffered.whole
  · intro before after opened
    have opened := (List.mem_cons.mp opened).resolve_left nofun
    rw [earlier before after opened, frames_cons_quiet rfl, d.frames_eq,
      received_cons_silent rfl]

theorem Life.framed {n : Nat} {c : Option (Client τ)}
    (framing : Framing h inputCapacity outputCapacity k act) (positive : 0 < inputCapacity)
    (life : Life h inputCapacity outputCapacity n c os) : Framed act k os c := by
  induction life with
  | absent => exact ⟨.nil, by simp⟩
  | declined => exact ⟨Faithful.nil.cons (by simp) (by simp) (by simp), by simp⟩
  | @opened d w w' c back guest asked =>
    obtain ⟨_, _, created, input⟩ := framing.opened w n d
    rw [← guest, asked] at created
    cases created
    have unread : (c.returned back).unread = [] := by
      rw [Client.unread_returned, Client.unread, input]
      exact InputStream.unread_ofCapacity inputCapacity
    have buffered : Buffered k (c.returned back)
        [.opened ⟨w, c⟩ ⟨w', c.returned back⟩] := by
      refine ⟨⟨_, input, InputStream.usable_ofCapacity positive⟩, ?_, by simp [frames, frame?], ?_⟩
      · rw [Whole, unread]
        rfl
      · exact Faithful.nil.cons (by simp) (by simp) (by simp)
    refine ⟨c.returned back, by simp, ?_, ?_⟩
    · cases marked : (c.returned back).killed with
      | false => exact .inl ⟨buffered, ⟨marked, marked⟩, rfl⟩
      | true => exact .inr ⟨buffered, ⟨marked, marked⟩, rfl⟩
    · rw [unread]
      exact framing.frame_pos
  | kept life served ih =>
    obtain ⟨first, earlier, rest⟩ := ih
    have path := Session.path_of_serve served (by simp)
    refine ⟨first, ?_, (framing.serve rest served).2 rfl⟩
    intro before after opened
    exact earlier before after (Session.Path.mem_of_opened path rfl opened)
  | torn life served ih =>
    obtain ⟨first, earlier, rest⟩ := ih
    have path := Session.path_of_serve served (by simp)
    apply (framing.serve rest served).1.close
    intro before after opened
    exact earlier before after (Session.Path.mem_of_opened path rfl opened)
  | stopped life ih =>
    obtain ⟨first, earlier, rest⟩ := ih
    exact (rest.spent framing.frame_pos).handled.close earlier _ _

namespace Framed

variable {there : Option (Client τ)} {before after : Moment τ ω}

theorem faithful (framed : Framed act k os there) : Faithful os := by
  cases there with
  | none => exact framed.1
  | some c =>
    obtain ⟨_, _, going | marked, _⟩ := framed
    · exact going.buffered.faithful
    · exact marked.buffered.faithful

theorem whole (framed : Framed act k os (some c)) : Whole c os ∧ c.unread.length < k := by
  obtain ⟨_, _, going | marked, short⟩ := framed
  · exact ⟨going.buffered.whole, short⟩
  · exact ⟨marked.buffered.whole, short⟩

theorem frames_eq (framed : Framed act k os there) (pos : 0 < k)
    (opened : .opened before after ∈ os) :
    frames os = dueFrames act k after.client (received os) := by
  cases there with
  | none => exact framed.2 before after opened
  | some c =>
    obtain ⟨first, earlier, rest⟩ := framed
    rw [earlier before after opened]
    exact (rest.spent pos).handled.frames_eq

end Framed

def ScriptAction.stops : ScriptAction → Bool
  | .kill | .fail | .echoKill | .echoFail => true
  | _ => false

def Script.frameAction (k : Script) : FrameAction (List UInt8) := fun tag f =>
  (f.take 1 ++ tag, (k.action (f.headD 0)).stops)

theorem Client.input_of_createStreams {c b : Client τ} (created : c.createStreams = .ok b)
    (absent : c.input = none) (pos : 0 < c.inputCapacity) :
    b.input = some (.ofCapacity c.inputCapacity) := by
  obtain ⟨input, _, first, -, rfl⟩ := of_createStreams created
  rw [orCreate, if_pos ⟨by simp [absent], pos⟩, InputStream.create,
    if_neg (Nat.ne_of_gt pos)] at first
  split at first
  · cases first
  · cases first
    rfl

namespace Script

variable {w w' : ScriptLog} {b back : ScriptClient} {e : RequestEnd}

theorem perform_steady {f : List UInt8} {a : ScriptAction} (steady : ∀ n, a ≠ .resize n)
    (goes : a ≠ .pause) (done : perform w b f a = (e, w', back)) :
    back.input = b.input ∧ back.tag = b.tag ∧
      if a.stops then e ≠ .panicked ∧ (back.killed = true ∨ e = .failed)
      else e = .served ∧ back.killed = b.killed := by
  cases a with
  | pause => exact absurd rfl goes
  | resize n => exact absurd rfl (steady n)
  | _ =>
    cases done
    simp [ScriptAction.stops, Client.kill, Client.reply]

theorem request_short (k : Script) (short : b.available < k.frame) :
    ∃ w', k.request w b = (.idle, w', b) := by
  rw [Script.request]
  cases there : b.input with
  | none => exact ⟨_, rfl⟩
  | some s =>
    have short : s.available < k.frame := by simpa [Client.available, there] using short
    have refused : s.read k.frame = .error (.short k.frame s.available) := by
      rw [InputStream.read, if_pos short]
    dsimp only
    rw [refused]
    exact ⟨_, rfl⟩

theorem request_whole (k : Script) (enough : k.frame ≤ b.available) :
    ∃ s t w', b.input = some s ∧ s.read k.frame = .ok (b.unread.take k.frame, t) ∧
      t.unread = b.unread.drop k.frame ∧
      k.request w b = perform w' (seen b t (b.unread.take k.frame)) (b.unread.take k.frame)
        (k.action ((b.unread.take k.frame).headD 0)) := by
  have pos := k.frame_pos
  rw [Script.request]
  cases there : b.input with
  | none =>
    simp [Client.available, there] at enough
    omega
  | some s =>
    have enough : ¬ s.available < k.frame := by simpa [Client.available, there] using enough
    have unread : b.unread = s.unread := by simp [Client.unread, there]
    dsimp only
    cases read : s.read k.frame with
    | error r =>
      rw [InputStream.read, if_neg enough] at read
      cases read
    | ok r =>
      obtain ⟨f, t⟩ := r
      obtain ⟨rfl, rest⟩ := InputStream.bytes_of_read read
      rw [unread]
      exact ⟨s, t, _, rfl, read, rest, rfl⟩

theorem framing (k : Script) (streams : k.streams = true) (positive : 0 < inputCapacity)
    (input : inputCapacity ≤ maxCapacity) (output : outputCapacity ≤ maxCapacity)
    (steady : ∀ b n, k.action b ≠ .resize n) (goes : ∀ b, k.action b ≠ .pause) :
    Framing k.handler inputCapacity outputCapacity k.frame k.frameAction := by
  constructor
  · exact k.frame_pos
  · intro w n d
    obtain ⟨back, created⟩ := Client.createStreams_ok
      (c := k.handler.guest inputCapacity outputCapacity n d) input output
    have stream := Client.input_of_createStreams created rfl positive
    change ∃ w' back, k.opened w _ = _ ∧ _
    rw [Script.opened, if_pos streams, created]
    exact ⟨_, back, rfl, stream⟩
  · intro w c e w' back s asked there usable
    change k.request w c = _ at asked
    rcases Nat.lt_or_ge c.available k.frame with short | enough
    · obtain ⟨_, idle⟩ := k.request_short (w := w) short
      cases idle.symm.trans asked
      exact ⟨s, there, usable⟩
    · obtain ⟨s', t, _, here, read, -, whole⟩ := k.request_whole (w := w) enough
      obtain ⟨kept, -⟩ := perform_steady (steady _) (goes _) (whole.symm.trans asked)
      cases there.symm.trans here
      exact ⟨t, kept, usable.read read⟩
  · intro w c e w' back asked short
    obtain ⟨_, idle⟩ := k.request_short (w := w) short
    cases idle.symm.trans asked
    exact ⟨rfl, rfl, rfl, rfl⟩
  · intro w c e w' back asked enough
    obtain ⟨s, t, _, -, -, rest, whole⟩ := k.request_whole (w := w) enough
    obtain ⟨kept, tag, ends⟩ := perform_steady (steady _) (goes _) (whole.symm.trans asked)
    refine ⟨?_, ?_, ends⟩
    · rw [Client.unread, kept]
      exact rest
    · rw [tag, seen, frameAction]

end Script

namespace EventLoop

variable {l : EventLoop τ ω} {waits : List Wait}

/-- However the bytes of a client arrive, the frames consumed are the consecutive ones of what was
received, up to the first that ends the connection, and less than a frame is unread when the loop
waits. -/
theorem frames_wait (begins : l.Begins) (positive : 0 < l.inputCapacity)
    (framing : Framing h l.inputCapacity l.outputCapacity k act)
    (fresh : EachAccepted h Free l waits) :
    let m := l.wait h waits
    (∀ n before after, .opened before after ∈ own n m.history →
      frames (own n m.history) = dueFrames act k after.client (received (own n m.history))) ∧
    (∀ n, Faithful (own n m.history)) ∧
    (∀ c ∈ m.clients, Whole c (own c.serial m.history) ∧ c.unread.length < k) ∧
    ∀ waits', EachAccepted h Free l waits' →
      let m' := l.wait h waits'
      ∀ n n' before before' w w' c c', .opened before ⟨w, c⟩ ∈ own n m.history →
        .opened before' ⟨w', c'⟩ ∈ own n' m'.history → c'.tag = c.tag → c'.killed = c.killed →
        received (own n' m'.history) = received (own n m.history) →
        frames (own n' m'.history) = frames (own n m.history) := by
  intro m
  have pos := framing.frame_pos
  have lives {waits : List Wait} (fresh : EachAccepted h Free l waits) :
      Lives h l.inputCapacity l.outputCapacity (l.wait h waits) := by
    have moves := moves_wait fresh
    have alive := (Moves.calm begins.orderly framing.calm moves begins.alive).1
    exact Moves.lives begins.orderly begins.lives moves alive
  have framed {waits : List Wait} (fresh : EachAccepted h Free l waits) (n : Nat) :
      ∃ there, Framed act k (own n (l.wait h waits).history) there := by
    obtain ⟨there, life⟩ := (lives fresh).life n
    exact ⟨there, life.framed framing positive⟩
  have consumed {waits : List Wait} (fresh : EachAccepted h Free l waits) (n : Nat)
      {before after : Moment τ ω} (opened : .opened before after ∈ own n (l.wait h waits).history) :
      frames (own n (l.wait h waits).history) =
        dueFrames act k after.client (received (own n (l.wait h waits).history)) := by
    obtain ⟨there, framed⟩ := framed fresh n
    exact framed.frames_eq pos opened
  refine ⟨?_, ?_, ?_, ?_⟩
  · intro n before after opened
    exact consumed fresh n opened
  · intro n
    obtain ⟨there, framed⟩ := framed fresh n
    exact framed.faithful
  · intro c member
    have life := (lives fresh).inside c member
    exact (life.framed framing positive).whole
  · intro waits' fresh' m' n n' before before' w w' c c' opened opened' tag killed same
    rw [consumed fresh n opened, consumed fresh' n' opened', same, dueFrames, dueFrames, tag,
      killed]

/-- Two clients with a buffer of two bytes send the same seven bytes in other pieces, which are two
frames of three and one byte. The connection of a third ends with its second frame. -/
theorem frames_wait_pieces :
    let k : Script :=
      { frame := 3, frame_pos := by decide,
        action := fun b => if b = 9 then .echoKill else .proceed }
    let readable (d : Descriptor) (bytes : List UInt8) : Event :=
      { descriptor := d, flags := { readable := true }, read := .bytes bytes }
    let waits : List Wait :=
      [.events
          [{ descriptor := 3
             accepts := [.connection 6 true true, .connection 7 true true,
              .connection 8 true true] },
            readable 6 [1, 2], readable 7 [1], readable 6 [3, 4, 5], readable 8 [1, 2],
            { descriptor := 7, flags := { readable := true }, read := .fault .interrupted }],
        .events
          [readable 7 [2], readable 7 [3, 4], readable 6 [5, 6, 7], readable 8 [3, 9],
            readable 7 [5, 6, 7], readable 8 [9, 9, 1, 2, 3]]]
    let m := (create 3 5 2 4 {}).wait k.handler waits
    [0, 1, 2].map (fun n => frames (own n m.history)) =
        [[[1, 2, 3], [4, 5, 6]], [[1, 2, 3], [4, 5, 6]], [[1, 2, 3], [9, 9, 9]]] ∧
      m.clients.map Client.unread = [[7], [7]] ∧
      (∀ n, Faithful (own n m.history)) ∧
      ∀ c ∈ m.clients, Whole c (own c.serial m.history) ∧ c.unread.length < 3 := by
  intro k readable waits m
  have framing : Framing k.handler 2 4 3 k.frameAction :=
    k.framing rfl (by decide) (by decide) (by decide)
      (by intro b n; by_cases nine : b = 9 <;> simp [k, nine])
      (by intro b; by_cases nine : b = 9 <;> simp [k, nine])
  have fresh : EachAccepted k.handler Free (create 3 5 2 4 {}) waits := by decide +kernel
  obtain ⟨-, faithful, whole, -⟩ :=
    frames_wait (begins_create 3 5 2 4 {}) (by decide) framing fresh
  exact ⟨by decide +kernel, by decide +kernel, faithful, whole⟩

end EventLoop

end RenderBroker
