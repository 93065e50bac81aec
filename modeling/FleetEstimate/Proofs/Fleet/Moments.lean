import FleetEstimate.Proofs.Fleet.Accounts

/-!
# The moments of a coordinator

A coordinator has a fleet, perhaps a run, and the results that it has added to the totals
of its runs. It handles one member after the other; what it is between two handlings is a
moment. `Task` says what a coordinator does from one moment to the next, and `Step` also
what goes on around it: far ends act and time goes by.

A moment is sound if the account of every member agrees with its state, and if every added
result was the answer to the last work call of its member, made in the same run after the
assignment of that run.
-/

namespace FleetEstimate

/-- Totals that some batches were merged into, one after the other. -/
inductive Totals.Sums {α : Type} [Scalar α] (start : Totals α) :
    List (Totals α) → Totals α → Prop
  | none : Sums start [] start
  | more {batches t batch t'} (sofar : Sums start batches t)
      (merged : t.merge batch = .ok (some t')) : Sums start (batches ++ [batch]) t'

theorem Totals.Sums.eq_start {α : Type} [Scalar α] {start t : Totals α} (h : Sums start [] t) :
    t = start := by
  generalize hnone : ([] : List (Totals α)) = batches at h
  cases h with
  | none => rfl
  | more _ _ => exact absurd hnone (by simp)

/-- A run of a coordinator. -/
structure Run where
  assignment : Assignment
  /-- What each member had been given when the run began. -/
  begun : MemberId → Bytes
  /-- How many results had been added in the runs before. -/
  mark : ℕ
  /-- The totals at the beginning. -/
  start : Totals Real64
  totals : Totals Real64

/-- A result that was added to the totals of a run. -/
structure Added (ρ : Type) where
  run : Run
  member : MemberId
  /-- The link of the member just before the result was read. -/
  link : Link ρ
  result : WorkResult

/-- An added result is the answer to the last work call that its member was given. The call
was made in the same run, and by then the worker held the assignment of the run. -/
structure Added.Answers {ρ : Type} [Traffic ρ] (ω : Type) [World ω ρ] (e : Added ρ)
    (before : List Request) : Prop where
  /-- All requests before the call are answered, and the answers are read. -/
  last : Account e.link before [.work]
  /-- The call was made after the run had begun. -/
  within : e.run.begun e.member <+: before.flatMap Request.encode
  holds : held before = e.run.assignment.holding
  /-- The result was read from the link and is the answer to the call. -/
  read : ∃ l w w', Meets (ω := ω) WorkResult.recv e.link w (.ok e.result) l w' ∧
    Account l (before ++ [.work]) []
  answer : Answer e.run.assignment.holding .work e.result.encode

/-- What a coordinator has between the handling of one member and the next. -/
structure Moment (ω ρ : Type) where
  fleet : Fleet ρ
  world : ω
  /-- The run that it is in. -/
  run : Option Run
  /-- All results that it has added. -/
  added : List (Added ρ)

namespace Moment

open Fleet

variable {ω ρ : Type} [World ω ρ] [Traffic ρ]

/-- A connection over which nothing is owed. -/
def Quiet (x : ρ) : Prop :=
  ∃ done, Traffic.given x = done.flatMap Request.encode ∧ Replies .nothing done (Traffic.said x)

/-- What members had been given at a moment. -/
def givenBy (f : Fleet ρ) (id : MemberId) : Bytes :=
  (f.get? id).elim [] fun m => Traffic.given m.link.remote

/-- What a coordinator does between one moment and the next. -/
inductive Task : Moment ω ρ → Moment ω ρ → Prop
  /-- A connection over which nothing is owed is taken up. -/
  | inserted {f f' : Fleet ρ} {w w' : ω} {added x name id} (quiet : Quiet x)
      (insert : Ends (insert x name) f w id f' w') :
      Task ⟨f, w, none, added⟩ ⟨f', w', none, added⟩
  /-- A wait with a closed door. -/
  | waited {f f' : Fleet ρ} {w w' : ω} {added ev} (wait : Ends (waitForEvent false) f w ev f' w') :
      Task ⟨f, w, none, added⟩ ⟨f', w', none, added⟩
  /-- A result is read that nobody asks for any more. -/
  | discarded {f f' : Fleet ρ} {w w' : ω} {added id} (first : f.find? .pending = some id)
      (discard : Ends (discardResult id) f w () f' w') :
      Task ⟨f, w, none, added⟩ ⟨f', w', none, added⟩
  /-- A member that is working is let go of. -/
  | dropped {f f' : Fleet ρ} {w w' : ω} {added id} (working : f.stateOf? id = some .working)
      (drop : Ends (drop id) f w () f' w') : Task ⟨f, w, none, added⟩ ⟨f', w', none, added⟩
  /-- All members are dismissed. -/
  | dismissed {f f' : Fleet ρ} {w w' : ω} {added} (shutdown : Ends shutdown f w () f' w') :
      Task ⟨f, w, none, added⟩ ⟨f', w', none, added⟩
  /-- With every link quiet, a run begins. -/
  | began {f f' : Fleet ρ} {w w' : ω} {added} (a : Assignment) (start : Totals Real64)
      (idle : f.find? .working = none) (read : f.find? .pending = none)
      (reset : Ends (do resetAll; resetBusyTime) f w () f' w') :
      Task ⟨f, w, none, added⟩ ⟨f', w', some ⟨a, givenBy f, added.length, start, start⟩, added⟩
  /-- A fresh member is given the assignment. -/
  | assigned {f f' : Fleet ρ} {w w' : ω} {run added id} (first : f.find? .fresh = some id)
      (assign : Ends (assign run.assignment id) f w () f' w') :
      Task ⟨f, w, some run, added⟩ ⟨f', w', some run, added⟩
  /-- An idle member is handed a work unit. -/
  | handed {f f' : Fleet ρ} {w w' : ω} {run added id} (first : f.find? .idle = some id)
      (hand : Ends (handWork id) f w () f' w') :
      Task ⟨f, w, some run, added⟩ ⟨f', w', some run, added⟩
  /-- A wait with an open door. -/
  | listened {f f' : Fleet ρ} {w w' : ω} {run added ev}
      (wait : Ends (waitForEvent true) f w ev f' w') :
      Task ⟨f, w, some run, added⟩ ⟨f', w', some run, added⟩
  /-- A result is read and added, and its member is asked for its busy time. -/
  | counted {f f' : Fleet ρ} {w v w' : ω} {run added id m r l t}
      (first : f.find? .pending = some id) (member : f.get? id = some m)
      (read : Meets WorkResult.recv m.link w (.ok r) l v)
      (accepted : accept run.assignment run.totals r = .ok (some t))
      (conclude : Ends (conclude id) (f.withLink id l) v () f' w') :
      Task ⟨f, w, some run, added⟩
        ⟨f', w', some { run with totals := t }, added ++ [⟨run, id, m.link, r⟩]⟩
  /-- A result is read that does not belong to the run. -/
  | refused {f : Fleet ρ} {w v : ω} {run added id m r l} (first : f.find? .pending = some id)
      (member : f.get? id = some m) (read : Meets WorkResult.recv m.link w (.ok r) l v)
      (refused : accept run.assignment run.totals r = .ok none) :
      Task ⟨f, w, some run, added⟩ ⟨(f.withLink id l).withState id .fresh, v, some run, added⟩
  /-- A result cannot be read. -/
  | lost {f f' : Fleet ρ} {w v w' : ω} {run added id m e l} (first : f.find? .pending = some id)
      (member : f.get? id = some m) (read : Meets WorkResult.recv m.link w (.error (.failed e)) l v)
      (leaves : Leaves f id l v f' w') : Task ⟨f, w, some run, added⟩ ⟨f', w', some run, added⟩
  /-- A run is reported on. -/
  | reported {f : Fleet ρ} {w : ω} {run added} (r : Report) :
      Task ⟨f, w, some run, added⟩ ⟨f, Watch.report r w, some run, added⟩
  /-- With every result read, a run ends. -/
  | ended {f : Fleet ρ} {w : ω} {run added} (read : f.find? .pending = none) :
      Task ⟨f, w, some run, added⟩ ⟨f, w, none, added⟩

/-- What a coordinator does between one moment and a later one. -/
abbrev Tasks : Moment ω ρ → Moment ω ρ → Prop := Relation.ReflTransGen Task

/-- The next moment. -/
inductive Step : Moment ω ρ → Moment ω ρ → Prop
  | task {m m' : Moment ω ρ} (task : Task m m') : Step m m'
  /-- Time goes by in the outside world. -/
  | passed {f : Fleet ρ} {w : ω} {run added} (w' : ω) : Step ⟨f, w, run, added⟩ ⟨f, w', run, added⟩
  /-- A far end acts on its own. -/
  | acted {f : Fleet ρ} {w : ω} {run added id m} (member : f.get? id = some m) :
      Step ⟨f, w, run, added⟩ ⟨f.withRemote id (World.acting id m.link.remote w).1,
        (World.acting id m.link.remote w).2, run, added⟩

/-- The moments of a coordinator that began with nobody. -/
def Reachable (m : Moment ω ρ) : Prop :=
  ∃ w : ω, Relation.ReflTransGen Step ⟨.empty, w, none, []⟩ m

/-- No result of a moment is stale, and none counts twice. -/
structure Sound (m : Moment ω ρ) : Prop where
  /-- A member is owed the answer to one work call if it is working or `pending`, and to
  nothing otherwise. Whatever is unread begins this answer. -/
  owes : ∀ id x, m.fleet.get? id = some x →
    ∃ done, x.Settles done ∧ x.link.Begins done x.state.owed
  /-- Every added result was asked for in its run, after the assignment. -/
  answered : ∀ e ∈ m.added, ∃ before, e.Answers ω before
  /-- No two added results are answers to one work call. -/
  once : (m.added.map fun e => (e.member, Traffic.given e.link.remote)).Nodup
  /-- The totals of the run are those of the results that were added in it. -/
  sums : ∀ r, m.run = some r →
    Totals.Sums r.start ((m.added.drop r.mark).map fun e => e.result.batch) r.totals
  same : ∀ r, m.run = some r → ∀ e ∈ m.added.drop r.mark,
    e.run.assignment = r.assignment ∧ e.run.begun = r.begun

end Moment

end FleetEstimate
