import Turnstile.Proofs.Tables.Alike

/-!
# Queries do not show

A query asks for a weight, looks something up or counts. The one that is for weights keeps what it
works out, in the records of as many threads as lend, so it does write.

* **`transcript`** is what can be seen of a run of calls and queries: the answers to the calls, in
  order, and the tables or the violation at the end.
* **`queries_invisible`**: leaving all queries out of a run changes neither the answers nor the
  violation, and of the tables nothing but weights kept.

A query on a thread without a record would make one, so queries are about known threads and live
handles (`Query.Apt`).
-/

namespace Turnstile.Tables

open Ledger

/-- A question to the tables. -/
inductive Query
  | effective (thread : ThreadId)
  | baseOf (thread : ThreadId)
  | record (thread : ThreadId)
  | queue (id : QueueId)
  | threadCount
  | queueCount
deriving DecidableEq, Repr

/-- What a query gives back. -/
inductive Reply
  | weight (weight : Int)
  | record (state : Option ThreadState)
  | queue (queue : Queue)
  | count (count : Nat)
deriving DecidableEq, Repr

namespace Query

/-- Answer a query. -/
def ask : Query → Tables → Except Violation (Reply × Tables)
  | effective thread, tables =>
    (tables.effective thread).map fun (weight, after) => (.weight weight, after)
  | baseOf thread, tables => .ok (.weight (tables.baseOf thread).1, (tables.baseOf thread).2)
  | record thread, tables => .ok (.record (tables.threads.get? thread), tables)
  | queue id, tables => (tables.queue id).map fun queue => (.queue queue, tables)
  | threadCount, tables => .ok (.count tables.threads.size, tables)
  | queueCount, tables => .ok (.count tables.queues.size, tables)

/-- A query is about threads that are known and about live handles. -/
def Apt (tables : Tables) : Query → Prop
  | effective thread => tables.knows thread = true
  | baseOf thread => tables.knows thread = true
  | record thread => tables.knows thread = true
  | queue id => (tables.queues.get? id).isSome = true
  | threadCount => True
  | queueCount => True

instance (tables : Tables) : DecidablePred (Apt tables)
  | effective thread => inferInstanceAs (Decidable (tables.knows thread = true))
  | baseOf thread => inferInstanceAs (Decidable (tables.knows thread = true))
  | record thread => inferInstanceAs (Decidable (tables.knows thread = true))
  | queue id => inferInstanceAs (Decidable ((tables.queues.get? id).isSome = true))
  | threadCount => .isTrue trivial
  | queueCount => .isTrue trivial

/-- A query has an answer, and leaves alike tables. -/
theorem ask_apt {tables : Tables} (sound : tables.Sound) {query : Query}
    (apt : query.Apt tables) :
    ∃ reply after, query.ask tables = .ok (reply, after) ∧ after.Alike tables ∧ after.Sound := by
  cases query with
  | effective thread =>
    obtain ⟨weight, after, ok, alike, sound', -⟩ := effective_bare sound thread
    rw [enrol_of_knows apt] at alike
    exact ⟨.weight weight, after, by rw [ask, ok]; rfl, alike, sound'⟩
  | baseOf thread =>
    refine ⟨.weight (tables.state thread).base, tables, ?_, rfl, sound⟩
    rw [ask, Tables.baseOf, enrol_of_knows apt]
  | record thread => exact ⟨_, tables, rfl, rfl, sound⟩
  | queue id =>
    obtain ⟨queue, live⟩ := Option.isSome_iff_exists.mp apt
    refine ⟨.queue queue, tables, ?_, rfl, sound⟩
    rw [ask, queue_eq_ok_iff.mpr live]
    rfl
  | threadCount => exact ⟨_, tables, rfl, rfl, sound⟩
  | queueCount => exact ⟨_, tables, rfl, rfl, sound⟩

end Query

/-! ## Runs -/

/-- A step of a run: a call, or a query among the calls. -/
inductive Act
  | call (call : Call)
  | query (query : Query)
deriving DecidableEq, Repr

/-- What can be seen of a run: the answers to the calls before any violation, and where the run
ended. -/
structure Transcript where
  answers : List Answer
  outcome : Except Violation Tables

/-- Perform calls and answer queries in a row, up to a violation. -/
def transcript : List Act → Tables → Transcript
  | [], tables => ⟨[], .ok tables⟩
  | .call call :: rest, tables =>
    match call.perform tables with
    | .ok (answer, after) =>
      ⟨answer :: (transcript rest after).answers, (transcript rest after).outcome⟩
    | .error violation => ⟨[], .error violation⟩
  | .query query :: rest, tables =>
    match query.ask tables with
    | .ok (_, after) => transcript rest after
    | .error violation => ⟨[], .error violation⟩

/-- The run without its queries. -/
def withoutQueries (acts : List Act) : List Act :=
  acts.filter fun act => match act with
    | .call _ => true
    | .query _ => false

/-- Each query of a run is apt where it is asked. -/
def Apt : List Act → Tables → Prop
  | [], _ => True
  | .call call :: rest, tables =>
    match call.perform tables with
    | .ok (_, after) => Apt rest after
    | .error _ => True
  | .query query :: rest, tables =>
    query.Apt tables ∧
      match query.ask tables with
      | .ok (_, after) => Apt rest after
      | .error _ => True

instance decidableApt : (acts : List Act) → (tables : Tables) → Decidable (Apt acts tables)
  | [], _ => .isTrue trivial
  | .call call :: rest, tables =>
    match h : call.perform tables with
    | .ok (_, after) =>
      have := decidableApt rest after
      decidable_of_iff (Apt rest after) (by simp only [Apt, h])
    | .error _ => .isTrue (by simp only [Apt, h])
  | .query query :: rest, tables =>
    match h : query.ask tables with
    | .ok (_, after) =>
      have := decidableApt rest after
      decidable_of_iff (query.Apt tables ∧ Apt rest after) (by simp only [Apt, h])
    | .error _ => decidable_of_iff (query.Apt tables) (by simp only [Apt, h, and_true])

/-- From alike tables, a run and the same run without its queries give the same answers and end
alike. -/
theorem transcript_agree {acts : List Act} {a b : Tables} (alike : a.Alike b) (left : a.Sound)
    (right : b.Sound) (apt : Apt acts a) :
    (transcript acts a).answers = (transcript (withoutQueries acts) b).answers ∧
      Agree Alike (transcript acts a).outcome (transcript (withoutQueries acts) b).outcome := by
  induction acts generalizing a b with
  | nil => exact ⟨rfl, alike⟩
  | cons act rest ih =>
    cases act with
    | query query =>
      obtain ⟨here, onward⟩ := apt
      obtain ⟨reply, after, ok, same, sound⟩ := query.ask_apt left here
      rw [ok] at onward
      rw [transcript, ok]
      exact ih (same.trans alike) sound right onward
    | call call =>
      have agree := perform_agree alike left right call
      rw [show withoutQueries (.call call :: rest) = .call call :: withoutQueries rest from rfl,
        transcript, transcript]
      rw [Apt] at apt
      rcases agree.cases with ⟨⟨answer, after⟩, ⟨answer', after'⟩, first, second, same, alike'⟩ |
        ⟨violation, first, second⟩
      · obtain rfl : answer = answer' := same
        rw [first] at apt
        obtain ⟨answers, outcome⟩ :=
          ih alike' (perform_sound left first) (perform_sound right second) apt
        rw [first, second]
        exact ⟨congrArg (answer :: ·) answers, outcome⟩
      · rw [first, second]
        exact ⟨rfl, rfl⟩

/-- Queries on known threads and live handles do not show: with them and without them every call
has the same answer or the same violation, whatever is drawn, and the tables at the end differ in
nothing but weights kept. -/
theorem queries_invisible (policy : Policy) (seed : UInt64) {acts : List Act}
    (apt : Apt acts (fresh policy seed)) :
    let watched := transcript acts (fresh policy seed)
    let plain := transcript (withoutQueries acts) (fresh policy seed)
    watched.answers = plain.answers ∧ Agree Alike watched.outcome plain.outcome :=
  transcript_agree rfl (sound_fresh policy seed) (sound_fresh policy seed) apt

/-- Two draws, with weights asked for before, between and after them. -/
theorem queries_invisible_draw :
    let acts : List Act :=
      [.call (.newQueue true), .call (.setBase ⟨1⟩ 1), .call (.acquire (.pack 0 0) ⟨1⟩),
        .call (.setBase ⟨2⟩ 100), .call (.enqueue (.pack 0 0) ⟨2⟩), .query (.effective ⟨1⟩),
        .call (.setBase ⟨3⟩ 50), .call (.enqueue (.pack 0 0) ⟨3⟩), .query (.effective ⟨1⟩),
        .query (.queue (.pack 0 0)), .call (.handOver (.pack 0 0)), .query (.baseOf ⟨3⟩),
        .call (.handOver (.pack 0 0)), .query (.effective ⟨2⟩), .query .threadCount]
    Apt acts (fresh .lottery 7) ∧
      (transcript acts (fresh .lottery 7)).answers =
        (transcript (withoutQueries acts) (fresh .lottery 7)).answers := by
  intro acts
  have apt : Apt acts (fresh .lottery 7) := by decide +kernel
  exact ⟨apt, (queries_invisible .lottery 7 apt).1⟩

end Turnstile.Tables
