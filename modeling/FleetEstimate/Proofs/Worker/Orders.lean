import FleetEstimate.Proofs.Worker.Attendance

/-!
# What a coordinator has a worker do

A coordinator asks a worker for its name, assigns it an experiment, hands it work units one at a
time, and reads each result before it asks for the busy time. With work units of one sample the
results are the samples of a run, one after the other, however often the worker was assigned
something before.
-/

namespace FleetEstimate

variable {E : Type} [Experiment E]

/-! ## The samples of a run -/

/-- The sample of a run with the number `n`, from the seed zero. -/
def runSample (e : E) (n : ℕ) : List Real64 :=
  (Experiment.sample (Experiment.skip n (Experiment.seed 0 e))).1

theorem length_runSample (e : E) (n : ℕ) : (runSample e n).length = Experiment.count e := by
  rw [runSample, Experiment.length_sample, Experiment.count_skip, Experiment.count_seed]

/-- A worker that rebuilds the experiment `e` as `e₀` draws the samples of a run of `e`, whatever
seed it starts from. -/
structure Reproduces (e e₀ : E) : Prop extends Rebuilds e e₀ where
  draws : ∀ seed n, Experiment.draws n (Experiment.setParameter (Experiment.parameter e)
    (Experiment.seed seed e₀)) = Experiment.draws n (Experiment.seed 0 e)

variable {e e₀ : E}

theorem Reproduces.sample (h : Reproduces e e₀) (seed : UInt64) (n : ℕ) :
    (Experiment.sample (Experiment.skip n (Experiment.setParameter (Experiment.parameter e)
      (Experiment.seed seed e₀)))).1 = runSample e n := by
  have hall := h.draws seed (n + 1)
  rw [Experiment.draws_succ, Experiment.draws_succ, h.draws] at hall
  exact List.singleton_inj.1 (List.append_cancel_left hall)

/-- A worker that has served the turns `past` has drawn `n` samples since it was assigned the
experiment `e`. -/
def Assigned (e e₀ : E) (past : List Turn) (n : ℕ) : Prop :=
  ∃ seed, standing past = some (Experiment.toText e, Experiment.skip n
    (Experiment.setParameter (Experiment.parameter e) (Experiment.seed seed e₀)))

/-- A result that holds the sample of a run of `e` with the number `n`, and belongs to it. -/
structure HoldsSample (e : E) (n : ℕ) (r : WorkResult) : Prop where
  travels : r.Travels
  belongs : r.Matches (Assignment.of e).digest (Assignment.of e).parameter
  batch : (Totals.zero (Experiment.count e)).accumulate (runSample e n) = .ok r.batch

variable {past : List Turn} {n : ℕ} {r : WorkResult}

theorem Worked.holdsSample (h : Reproduces e e₀) {seed : UInt64}
    (hnumber : (Experiment.parameter e).isNaN = false)
    (hcount : 8 * Experiment.count e ≤ maxPayload)
    (hworked : Worked (Experiment.toText e) (Experiment.skip n (Experiment.setParameter
      (Experiment.parameter e) (Experiment.seed seed e₀))) past 1 r) : HoldsSample e n r := by
  -- neither sampling nor setting a parameter changes the dimension
  have hsame : Experiment.count (Experiment.skip n (Experiment.setParameter
      (Experiment.parameter e) (Experiment.seed seed e₀))) = Experiment.count e := by
    rw [Experiment.count_skip, h.count]
  refine ⟨hworked.travels (by rw [hsame]; exact hcount), ?_, ?_⟩
  · refine (WorkResult.matches_iff hworked.digest ?_).2 hnumber
    rw [hworked.parameter, Experiment.skip, Experiment.skip, ← Experiment.skip_succ]
    exact h.parameter seed (n + 1)
  · -- the sample that comes next in the worker is the next of the experiment itself
    have htotals := hworked.totals
    rw [Totals.accumulateAll_succ, h.sample, hsame] at htotals
    rw [← htotals]
    cases (Totals.zero (Experiment.count e)).accumulate (runSample e n) <;> rfl

/-! ## Exchanges with a worker -/

section Exchanges

variable {ω : Type} [WorkerWorld ω] {c : WorkerConfig} {l : Link (WorkerEnd E)} {w : ω}

theorem meets_nameOf (hname : c.name.utf8ByteSize ≤ maxPayload) (h : l.Attended c past []) :
    ∃ l', Meets (do Link.sendTag .getName; Link.recvText : LinkM ω (WorkerEnd E) String) l w
        (.ok c.name) l' w ∧
      l'.Attended c (.name :: past) [] := by
  have hsends : Sends (Link.sendTag .getName : LinkM ω (WorkerEnd E) Unit) Request.name.encode :=
    Link.sends_sendTag .getName
  rcases meets_request hsends trivial rfl rfl hname h with ⟨l₁, reply, hsend, hreply, hattended⟩
  rcases hreply
  have hreply : l₁.Attended c (.name :: past) (Text.frame c.name ++ []) := by
    rwa [List.append_nil]
  rcases meets_reply (ω := ω) (w := w) (fun _ hs => Link.reads_recvText hs hname) hreply with
    ⟨l', hread, hattended'⟩
  exact ⟨l', (meets_bind_of_ok hsend).2 hread, hattended'⟩

theorem meets_busyTimeOf (h : l.Attended c past []) :
    ∃ l' used, Meets (do Link.sendTag .getCpuTime; Link.recvReal : LinkM ω (WorkerEnd E) Real64) l w
        (.ok used) l' w ∧
      l'.Attended c (.busyTime :: past) [] := by
  have hsends : Sends (Link.sendTag .getCpuTime : LinkM ω (WorkerEnd E) Unit)
      Request.busyTime.encode := Link.sends_sendTag .getCpuTime
  -- the question is written, and with its last byte the worker replies
  rcases meets_request hsends trivial rfl rfl trivial h with ⟨l₁, reply, hsend, hreply, hattended⟩
  rcases hreply
  have hreply : l₁.Attended c (.busyTime :: past)
      ((Nanoseconds.seconds (untold past).sum).toBytes ++ []) := by
    rwa [List.append_nil]
  rcases meets_reply (ω := ω) (w := w) (fun _ hs => Link.reads_recvReal hs _) hreply with
    ⟨l', hread, hattended'⟩
  exact ⟨l', _, (meets_bind_of_ok hsend).2 hread, hattended'⟩

theorem meets_assignment (hrebuilds : Rebuilds e e₀)
    (htext : (Experiment.toText e).utf8ByteSize ≤ maxPayload) (h : l.Attended c past []) :
    ∃ l' past', Meets (Assignment.of e).send l w (.ok ()) l' (WorkerWorld.freshSeed w).2 ∧
      l'.Attended c past' [] ∧ Assigned e e₀ past' 0 := by
  have hserved : (Request.system (Experiment.toText e)).Served E
      (standing (E := E) past).isSome := ⟨htext, e₀, hrebuilds.text⟩
  rcases meets_request (ω := ω) (w := w) (sends_system htext) hserved rfl rfl trivial h with
    ⟨l₁, reply, hsend, hreply, hattended⟩
  -- an assignment has no reply
  rcases hreply
  -- the worker has rebuilt the system, so that the parameter finds one
  have hstanding : standing (.system (Experiment.toText e) :: past) =
      some (Experiment.toText e, e₀) := by
    rw [standing, hrebuilds.text]
    rfl
  have hready : (standing (E := E) (.system (Experiment.toText e) :: past)).isSome = true := by
    rw [hstanding]
    rfl
  have hserved' : (Request.parameter (Experiment.parameter e)).Served E true := rfl
  rcases meets_request (ω := ω) (w := w) (sends_parameter (Experiment.parameter e)) hserved' hready
    rfl trivial hattended with ⟨l', reply, hsend', hreply, hattended'⟩
  rcases hreply
  refine ⟨l', _, ?_, hattended', (WorkerWorld.freshSeed w).1, ?_⟩
  · rw [Assignment.send_eq]
    exact (meets_bind_of_ok hsend).2 hsend'
  · rw [standing, hstanding]
    rfl

/-- A work unit of an assigned experiment comes to its next sample. -/
theorem meets_workUnit (hunit : c.workUnit = 0) (hreproduces : Reproduces e e₀)
    (hnumber : (Experiment.parameter e).isNaN = false)
    (hcount : 8 * Experiment.count e ≤ maxPayload) (hassigned : Assigned e e₀ past n)
    (h : l.Attended c past []) :
    ∃ l' past' r, Meets (Link.call workCall) l w (.ok ()) l' (WorkerWorld.span 0 w).2 ∧
      l'.Attended c past' r.encode ∧ Assigned e e₀ past' (n + 1) ∧ HoldsSample e n r := by
  rcases hassigned with ⟨seed, hstanding⟩
  have hready : (standing (E := E) past).isSome = true := by
    rw [hstanding]
    rfl
  have hturn : Turn.of c.workUnit .work w =
      some (.work 1 (WorkerWorld.span 0 w).1.spent, (WorkerWorld.span 0 w).2) := by
    rw [hunit]
    rfl
  -- one sample can be counted and sent
  have hfits : (Turn.work 1 (WorkerWorld.span 0 w).1.spent).Fits E c past := by
    refine ⟨by decide, ?_⟩
    intro text x hx
    rw [hstanding] at hx
    cases hx
    rw [Experiment.count_skip, hreproduces.count]
    exact hcount
  have hserved : Request.work.Served E true := rfl
  rcases meets_request (ω := ω) sends_workCall hserved hready hturn hfits h with
    ⟨l', reply, hsend, hreply, hattended⟩
  rcases hreply with _ | _ | _ | _ | ⟨hstanding', hworked⟩
  rw [hstanding] at hstanding'
  cases hstanding'
  refine ⟨l', _, _, hsend, hattended, ⟨seed, ?_⟩, hworked.holdsSample hreproduces hnumber hcount⟩
  rw [standing, hstanding, Experiment.skip_succ]
  rfl

theorem meets_result (htravels : r.Travels) (h : l.Attended c past r.encode) :
    ∃ l', Meets WorkResult.recv l w (.ok r) l' w ∧ l'.Attended c past [] := by
  refine meets_reply (ω := ω) (fun _ hs => WorkResult.reads_recv hs htravels) ?_
  rwa [List.append_nil]

end Exchanges

end FleetEstimate
