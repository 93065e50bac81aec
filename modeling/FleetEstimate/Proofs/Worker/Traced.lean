import FleetEstimate.Proofs.Fleet.Accounts
import FleetEstimate.Proofs.Wire.Streams
import FleetEstimate.Proofs.Worker.Service
import FleetEstimate.Rehearsal.Ensemble

/-!
# Workers with a record of their traffic

A worker in the same process keeps no record of what it was sent and what it has replied.
Together with such a record it is a far end that follows the protocol, and an ensemble of
such workers is a world in which all far ends do.
-/

namespace FleetEstimate

/-! ## Workers in the same process -/

namespace WorkerEnd

variable {ω E : Type} {e : WorkerEnd E} {given said : Bytes}

/-- All that a worker has replied, and that has arrived or not. -/
def replied (e : WorkerEnd E) (said : Bytes) : Bytes :=
  said ++ (e.arrived.flatten ++ e.underway.flatten)

/-- A worker was given some bytes, and others have come from it. -/
inductive Record (e : WorkerEnd E) (given said : Bytes) : Prop
  | serving {rs} (exit : e.exit = none) (replies : Replies .nothing rs (e.replied said))
      (log : Link.Logs (Stream.Log given) e.session.link [] (rs.flatMap Request.encode))
      (holds : e.session.Holds (held rs))
  | ended {rs out} (exit : e.exit ≠ none) (sent : rs.flatMap Request.encode <+: given)
      (replies : Replies .nothing rs out) (begins : e.replied said <+: out)

theorem Record.follows (h : e.Record given said) : FollowsProtocol given said := by
  have hsaid : said <+: e.replied said := List.prefix_append _ _
  cases h with
  | @serving rs _ replies log _ =>
    exact ⟨rs, _, (List.prefix_append _ _).trans log.isPrefix, replies, hsaid⟩
  | @ended rs out _ sent replies begins => exact ⟨rs, out, sent, replies, hsaid.trans begins⟩

/-- Replies on their way may be anywhere between the worker and the coordinator. -/
theorem Record.moved {e' : WorkerEnd E} {said' : Bytes} (h : e.Record given said)
    (hsession : e'.session = e.session) (hexit : e'.exit = e.exit)
    (hreplied : e'.replied said' = e.replied said) : e'.Record given said' := by
  -- neither constructor looks at where the replies are
  cases h with
  | serving exit replies log holds =>
    rw [← hreplied] at replies
    rw [← hsession] at log holds
    exact .serving (hexit.trans exit) replies log holds
  | ended exit sent replies begins =>
    refine .ended ?_ sent replies ?_
    · rw [hexit]
      exact exit
    · rw [hreplied]
      exact begins

theorem record_new (config : WorkerConfig) : (new config : WorkerEnd E).Record [] [] :=
  .serving rfl .nil ⟨rfl, rfl, rfl, rfl⟩ rfl

theorem Record.deliver (h : e.Record given said) (pieces : ℕ) :
    (e.deliver pieces).Record given said := by
  refine h.moved rfl rfl ?_
  have hall := List.take_append_drop pieces e.underway
  simp only [replied, WorkerEnd.deliver, List.flatten_append, List.append_assoc]
  rw [← List.flatten_append, hall]

theorem Record.poll (h : e.Record given said) :
    e.poll.2.Record given (said ++ e.poll.1.bytes) := by
  unfold WorkerEnd.poll
  split
  · rename_i bytes rest harrived
    refine h.moved rfl rfl ?_
    simp [replied, harrived, Arrival.bytes]
  · split
    · refine h.moved rfl rfl ?_
      simp [Arrival.bytes]
    · refine h.moved rfl rfl ?_
      simp [Arrival.bytes]

theorem Record.await (h : e.Record given said) :
    e.await.2.Record given (said ++ e.await.1.bytes) := by
  unfold WorkerEnd.await
  split
  · rename_i bytes rest _ harrived
    refine h.moved rfl rfl ?_
    simp [replied, harrived, Arrival.bytes]
  · rename_i bytes rest harrived hunderway
    refine h.moved rfl rfl ?_
    simp [replied, harrived, hunderway, Arrival.bytes]
  · refine h.moved rfl rfl ?_
    cases e.exit.isSome <;> simp [Arrival.bytes]

variable [Experiment E] [WorkerWorld ω] {w w' : ω}

/-- A worker that has more input serves the requests that it completes. -/
theorem Record.run (hexit : e.exit = none) {rs : List Request}
    (hreplies : Replies .nothing rs (e.replied said))
    (hlog : Link.Logs (Stream.Log given) e.session.link [] (rs.flatMap Request.encode))
    (hholds : e.session.Holds (held rs)) : (e.run w).1.Record given said := by
  rcases hserve : Worker.serve e.config (e.backlog + 1) e.session w with ⟨service, s, w'⟩
  have hserviced := Worker.serviced_serve hserve (Stream.keepsLog ω given)
    (fun _ _ _ hlog => hlog.isPrefix) hlog hholds
  unfold WorkerEnd.run
  rw [hserve]
  dsimp only
  cases hserviced with
  | @sofar rs' out' _ replies log holds goesOn =>
    -- what was written is on its way, and the stream begins with nothing again
    have hwritten : s.link.remote.written.toList.flatten = out' := log.written
    have hrecord : Record { e with
        session := { s with link.remote := { s.link.remote with written := #[] } }
        underway := e.underway ++ s.link.remote.written.toList } given said := by
      have hall : Replies .nothing (rs ++ rs') (e.replied said ++ out') :=
        replies_append_iff.2 ⟨_, out', rfl, hreplies, replies⟩
      have hsame : WorkerEnd.replied { e with
          session := { s with link.remote := { s.link.remote with written := #[] } }
          underway := e.underway ++ s.link.remote.written.toList } said =
            e.replied said ++ out' := by simp [replied, hwritten]
      rw [← hsame] at hall
      refine .serving hexit hall ?_ ?_
      · rw [List.flatMap_append]
        exact ⟨rfl, log.incoming, log.unlimited⟩
      · rw [held, List.foldl_append]
        exact holds
    cases service with
    | goesOn => exact hrecord
    | ends result => exact absurd rfl (goesOn result)
    | stalled => exact hrecord
  | @ended rs' out' said' heard result replies sent begins log =>
    have hwritten : s.link.remote.written.toList.flatten = said' := log.written
    have hall : Replies .nothing (rs ++ rs') (e.replied said ++ out') :=
      replies_append_iff.2 ⟨_, out', rfl, hreplies, replies⟩
    refine .ended (Option.some_ne_none result) ?_ hall ?_
    · rw [List.flatMap_append]
      exact sent
    · simp only [replied, List.flatten_append, hwritten]
      rw [← List.append_assoc, ← List.append_assoc, ← List.append_assoc]
      exact (List.prefix_append_right_inj _).2 begins

theorem Record.write (h : e.Record given said) {bytes : Bytes} {result : Except LinkError ℕ}
    {e' : WorkerEnd E} (hwrite : Remote.write bytes e w = (result, e', w')) :
    match result with
    | .ok n => e'.Record (given ++ bytes.take n) said
    | .error _ => e'.Record given said := by
  have heq : Remote.write bytes e w =
      if e.exit.isSome then (.error (.bare .brokenPipe), e, w)
      else (.ok bytes.length, ((e.sent bytes .waiting).run w).1,
        ((e.sent bytes .waiting).run w).2) := rfl
  rw [heq] at hwrite
  split at hwrite
  · cases hwrite
    exact h
  · -- the worker runs on what it has been sent so far
    rename_i hserves
    cases hwrite
    dsimp only
    rw [List.take_length]
    cases h with
    | @serving rs exit replies log holds =>
      refine Record.run exit replies ?_ holds
      refine ⟨log.written, ?_, log.unlimited⟩
      have hincoming := log.incoming
      simp only [sent, List.flatten_append, List.flatten_cons, List.flatten_nil, List.append_nil]
      rw [← List.append_assoc, hincoming]
    -- one that has ended takes nothing
    | ended exit _ _ _ =>
      rw [Option.not_isSome_iff_eq_none] at hserves
      exact absurd hserves exit

end WorkerEnd

/-- A worker in the same process with a record of its traffic. -/
structure Traced (E : Type) where
  worker : WorkerEnd E
  given : Bytes
  said : Bytes
  record : worker.Record given said

namespace Traced

variable {ω E : Type}

instance : Traffic (Traced E) := ⟨given, said⟩

/-- A worker before its first request. -/
def new (config : WorkerConfig) : Traced E := ⟨.new config, [], [], WorkerEnd.record_new config⟩

def poll (x : Traced E) : Arrival × Traced E :=
  (x.worker.poll.1, ⟨x.worker.poll.2, x.given, x.said ++ x.worker.poll.1.bytes, x.record.poll⟩)

def await (x : Traced E) : Arrival × Traced E :=
  (x.worker.await.1, ⟨x.worker.await.2, x.given, x.said ++ x.worker.await.1.bytes, x.record.await⟩)

def deliver (x : Traced E) : Traced E :=
  { x with
    worker := x.worker.deliver x.worker.underway.length
    record := x.record.deliver _ }

variable [Experiment E] [WorkerWorld ω]

def write (bytes : Bytes) (x : Traced E) (w : ω) : Except LinkError ℕ × Traced E × ω :=
  match h : Remote.write bytes x.worker w with
  | (.ok n, worker, w') => (.ok n, ⟨worker, x.given ++ bytes.take n, x.said, x.record.write h⟩, w')
  | (.error e, worker, w') => (.error e, ⟨worker, x.given, x.said, x.record.write h⟩, w')

instance : Remote ω (Traced E) where
  write := write
  poll := poll
  await x w := (x.await.1, x.await.2, w)
  close x w := Remote.close x.worker w

/-- An ensemble lets in workers that have not been asked anything yet. -/
def offer (w : Ensemble E) : Option (Except LinkError (Traced E)) × Ensemble E :=
  match w.door with
  | [] => (none, w)
  | e :: door => (some (.ok (new e.config)), { w with door })

instance : World (Ensemble E) (Traced E) where
  report r w := { w with recorder := w.recorder.add r }
  interrupted w := w.recorder.raised
  waiting _ w := w
  acting _ x w := (x.deliver, w)
  offer _ w := offer w
  elapsed _ := 1
  patience _ := 4

theorem keepsLog : KeepsLog ω (Traffic.Log (ρ := Traced E)) where
  write {bytes x w n x' w' g s} hlog hwrite := by
    rcases hlog with ⟨rfl, rfl⟩
    change x.write bytes w = _ at hwrite
    unfold write at hwrite
    split at hwrite
    · cases hwrite
      exact ⟨rfl, rfl⟩
    · cases hwrite
  -- a write that fails has not been noted
  write_error {bytes x w e x' w' g s} hlog hwrite := by
    rcases hlog with ⟨rfl, rfl⟩
    change x.write bytes w = _ at hwrite
    unfold write at hwrite
    split at hwrite
    · cases hwrite
    · cases hwrite
      exact ⟨rfl, rfl⟩
  poll hlog hpoll := by
    rcases hlog with ⟨rfl, rfl⟩
    cases hpoll
    exact ⟨rfl, rfl⟩
  await hlog hawait := by
    rcases hlog with ⟨rfl, rfl⟩
    cases hawait
    exact ⟨rfl, rfl⟩

omit [Experiment E] in
theorem log_of_offer {w : Ensemble E} {x : Traced E} (h : (offer w).1 = some (.ok x)) :
    Traffic.Log x [] [] := by
  unfold offer at h
  split at h
  · cases h
  · cases h
    exact ⟨rfl, rfl⟩

/-- In an ensemble of true workers all far ends follow the protocol. -/
instance : Workers (Ensemble E) (Traced E) where
  keeps := keepsLog
  acting hlog := hlog
  offered hoffer := log_of_offer (congrArg Prod.fst hoffer)
  follows x := x.record.follows

end Traced

/-! ## Replies that are held up -/

/-- An ensemble in which replies arrive and workers join as its spells say. -/
structure Paced (E : Type) extends Ensemble E

namespace Paced

variable {E : Type}

instance : WorkerWorld (Paced E) where
  freshSeed w := ((WorkerWorld.freshSeed w.toEnsemble).1, ⟨(WorkerWorld.freshSeed w.toEnsemble).2⟩)
  span unit w := ((WorkerWorld.span unit w.toEnsemble).1, ⟨(WorkerWorld.span unit w.toEnsemble).2⟩)
  ended name result w := ⟨WorkerWorld.ended name result w.toEnsemble⟩

/-- What arrives of a worker's replies in the current wait. -/
def deliverTo (w : Paced E) (x : Traced E) : Traced E :=
  { x with
    worker := w.toEnsemble.deliverTo x.worker
    record := x.record.deliver _ }

/-- The first worker at the door, if it asks to join in the current wait. -/
def offer (w : Paced E) : Option (Except LinkError (Traced E)) × Paced E :=
  if w.current.joining then ((Traced.offer w.toEnsemble).1, ⟨(Traced.offer w.toEnsemble).2⟩)
  else (none, w)

instance [Experiment E] : World (Paced E) (Traced E) where
  report r w := ⟨{ w.toEnsemble with recorder := w.recorder.add r }⟩
  interrupted w := w.recorder.raised
  waiting _ w := ⟨w.toEnsemble.beginWait⟩
  acting _ x w := (w.deliverTo x, w)
  offer _ w := w.offer
  elapsed _ := 1
  patience _ := 4

instance [Experiment E] : Workers (Paced E) (Traced E) where
  keeps := Traced.keepsLog
  acting hlog := hlog
  offered {quiet x w w'} hoffer := by
    change w.offer = _ at hoffer
    unfold offer at hoffer
    split at hoffer
    · exact Traced.log_of_offer (congrArg Prod.fst hoffer)
    · cases hoffer
  follows x := x.record.follows

end Paced

end FleetEstimate
