import Turnstile.Tables.Access

/-!
# What tables can be the cause of

Whatever state tables are in, sound or not, an operation of theirs fails with a violation that
concerns tables (`Violation.tabular`): a handle, a wait, a ring of donation, the stamps or the draw.
In particular none fails with a violation of the calling machine's discipline.
-/

namespace Turnstile

/-- The violation concerns tables. -/
def Violation.tabular : Violation → Bool
  | staleQueue _ | closesWaitedOn .. | waitsOnOwned .. | waitsTwice .. | acquiresWaitedOn .. => true
  | arrivalsExhausted | donationCycle _ | invalidationCycle _ | emptyPool | unfairDraw => true
  | _ => false

/-- The outcome is an answer or a violation that concerns tables. -/
def Tabular {α : Type} (outcome : Except Violation α) : Prop :=
  ∀ violation, outcome = .error violation → violation.tabular = true

namespace Tabular

variable {α β : Type}

theorem ok (a : α) : Tabular (.ok a) := by
  intro violation same
  cases same

theorem error {violation : Violation} (tabular : violation.tabular = true) :
    Tabular (.error violation : Except Violation α) := by
  intro other same
  cases same
  exact tabular

theorem bind {first : Except Violation α} {next : α → Except Violation β} (h : Tabular first)
    (rest : ∀ a, Tabular (next a)) : Tabular (first >>= next) := by
  cases first with
  | ok a => exact rest a
  | error violation => exact error (h violation rfl)

theorem map {outcome : Except Violation α} (h : Tabular outcome) (f : α → β) :
    Tabular (outcome.map f) := by
  cases outcome with
  | ok a => exact ok (f a)
  | error violation => exact error (h violation rfl)

end Tabular

namespace Tables

variable {id : QueueId} {thread : ThreadId} {tables : Tables}

theorem queue_tabular (tables : Tables) (id : QueueId) : Tabular (tables.queue id) := by
  unfold Tables.queue
  split
  · exact .ok _
  · exact .error rfl

/-! ## Walks along donation -/

theorem invalidate_tabular (tables : Tables) (thread : ThreadId) :
    Tabular (tables.invalidate thread) := by
  have within : ∀ hops thread tables, Tabular (invalidateWithin hops thread tables) := by
    intro hops
    induction hops with
    | zero => exact fun _ _ => .error rfl
    | succ hops ih =>
      intro thread tables
      rw [invalidateWithin]
      split
      · exact .ok _
      · dsimp only
        split
        · exact .ok _
        · exact ih _ _
  exact within _ _ _

theorem lenders_tabular (ids : List QueueId) : Tabular (tables.lenders ids) := by
  induction ids with
  | nil => exact .ok []
  | cons id rest ih =>
    rw [lenders]
    split
    · rename_i violation stale
      exact .error (queue_tabular tables id violation stale)
    · rename_i queue violation live others
      exact .error (ih violation others)
    · exact .ok _

theorem pool_tabular {weigh : ThreadId → Tables → Except Violation (Int × Tables)}
    (each : ∀ thread tables, Tabular (weigh thread tables)) (lenders : List (Policy × ThreadId))
    (total : Int) (tables : Tables) : Tabular (pool weigh lenders total tables) := by
  induction lenders generalizing total tables with
  | nil => exact .ok _
  | cons first rest ih =>
    rw [pool]
    split
    · rename_i violation failed
      exact .error (each first.2 tables violation failed)
    · exact ih _ _

theorem effective_tabular (tables : Tables) (thread : ThreadId) :
    Tabular (tables.effective thread) := by
  have weighs : ∀ depth thread tables, Tabular (weigh depth thread tables) := by
    intro depth
    induction depth with
    | zero => exact fun _ _ => .error rfl
    | succ depth ih =>
      intro thread tables
      rw [weigh]
      split
      · exact .ok _
      · split
        · rename_i violation failed
          exact .error (lenders_tabular _ violation failed)
        · split
          · rename_i violation failed
            exact .error (pool_tabular ih _ _ _ violation failed)
          · exact .ok _
  exact weighs _ _ _

/-! ## Queues -/

theorem closeQueue_tabular (tables : Tables) (id : QueueId) : Tabular (tables.closeQueue id) := by
  refine (queue_tabular tables id).bind fun queue => ?_
  split
  · split
    · exact (invalidate_tabular _ _).bind fun _ => .ok _
    · exact .ok _
  · exact .error rfl

theorem enqueue_tabular (tables : Tables) (id : QueueId) (thread : ThreadId) :
    Tabular (tables.enqueue id thread) := by
  refine (queue_tabular tables id).bind fun queue => ?_
  split
  · exact .error rfl
  split
  · exact .error rfl
  split
  · exact .error rfl
  · exact invalidate_tabular _ _

theorem acquire_tabular (tables : Tables) (id : QueueId) (thread : ThreadId) :
    Tabular (tables.acquire id thread) := by
  refine (queue_tabular tables id).bind fun queue => ?_
  split
  · exact .error rfl
  · refine Tabular.bind ?_ fun _ => invalidate_tabular _ _
    unfold displace
    split
    · split
      · exact .ok _
      · exact invalidate_tabular _ _
    · exact .ok _

theorem draw_tabular (weights : List Int) (generator : XorShift) :
    Tabular (Lottery.draw weights generator) := by
  unfold Lottery.draw
  split
  · exact .ok _
  · split
    · exact .ok _
    · rename_i violation failed
      unfold XorShift.draw at failed
      split at failed
      · cases failed
        exact .error rfl
      · split at failed
        · cases failed
        · cases failed
          exact .error rfl

theorem candidates_tabular (donation : Bool) (threads : List ThreadId) (tables : Tables) :
    Tabular (tables.candidates donation threads) := by
  induction threads generalizing tables with
  | nil => exact .ok _
  | cons thread rest ih =>
    refine Tabular.bind ?_ fun weighed => (ih weighed.2).bind fun _ => .ok _
    unfold standing
    split
    · exact effective_tabular _ _
    · exact .ok _

theorem choose_tabular (tables : Tables) (queue : Queue) : Tabular (tables.choose queue) := by
  refine (candidates_tabular _ _ _).bind fun candidates => ?_
  dsimp only
  split
  · exact .ok _
  · exact (draw_tabular _ _).bind fun _ => .ok _

theorem handOver_tabular (tables : Tables) (id : QueueId) : Tabular (tables.handOver id) := by
  refine Tabular.bind ?_ fun vacated => ?_
  · refine (queue_tabular tables id).bind fun queue => ?_
    dsimp only
    split
    · exact invalidate_tabular _ _
    · exact .ok _
  · refine (queue_tabular vacated id).bind fun queue =>
      (choose_tabular vacated queue).bind fun chosen => ?_
    dsimp only
    split
    · exact .ok _
    · exact (acquire_tabular _ _ _).bind fun _ => .ok _

/-! ## Weights and leaving -/

theorem setBase_tabular (tables : Tables) (thread : ThreadId) (weight : Int) :
    Tabular (tables.setBase thread weight) := by
  unfold setBase
  dsimp only
  split
  · exact .ok _
  · exact invalidate_tabular _ _

theorem forget_tabular (tables : Tables) (thread : ThreadId) : Tabular (tables.forget thread) := by
  unfold forget
  split
  · exact .ok _
  · refine Tabular.bind ?_ fun _ => .ok _
    unfold invalidateDonee
    split
    · exact invalidate_tabular _ _
    · exact .ok _

end Tables

end Turnstile
