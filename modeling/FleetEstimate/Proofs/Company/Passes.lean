import FleetEstimate.Proofs.Fleet.Passes
import FleetEstimate.Proofs.Fleet.Single
import FleetEstimate.Proofs.Worker.Orders
import FleetEstimate.Rehearsal.Company

/-!
# Passes over one worker

A coordinator whose only worker has work units of one sample goes through four phases: the worker
is at the door, is a fresh member, is ready for work, or is working. A pass that comes to nothing
uses up one of the waits that may be held up; every other pass adds the next sample of the run to
the totals.
-/

namespace FleetEstimate

open Fleet

variable {E : Type} [Experiment E] {c : WorkerConfig} {f : Fleet (WorkerEnd E)} {w : Ensemble E}
variable {past : List Turn} {out : Bytes} {s : MemberState} {e e₀ : E} {n : ℕ}

/-- Nobody is a member, and a worker that has not been asked anything is at the door. -/
structure AtDoor (c : WorkerConfig) (f : Fleet (WorkerEnd E)) (w : Ensemble E) : Prop where
  nobody : f.members.entries = []
  door : ∃ x, w.door = [x] ∧ x.Attends c [] [] []

/-- The only member has served the turns `past`, and the bytes `out` can be read from it. -/
structure Staffed (c : WorkerConfig) (s : MemberState) (past : List Turn) (out : Bytes)
    (f : Fleet (WorkerEnd E)) (w : Ensemble E) : Prop where
  door : w.door = []
  member : ∃ id m, f.Sole id m ∧ m.state = s ∧ m.link.Attended c past out

/-- How many waits may be held up, or come before the worker joins. -/
def Ensemble.holdups (w : Ensemble E) : ℕ := w.spells.length + w.door.length

theorem Staffed.ends_other {β : Type} {s' : MemberState}
    {handle : MemberId → β → FleetM (Ensemble E) (WorkerEnd E) β} {b : β}
    (h : Staffed c s past out f w) (hne : s ≠ s') : Ends (handleAll s' handle b) f w b f w := by
  rcases h.member with ⟨id, m, hsole, rfl, -⟩
  exact ends_handleAll_of_none (hsole.find?_eq_none hne)

/-! ## Orders -/

/-- A fresh member is assigned the experiment. -/
theorem Staffed.ends_assign (hrebuilds : Rebuilds e e₀)
    (htext : (Experiment.toText e).utf8ByteSize ≤ maxPayload) (h : Staffed c .fresh past [] f w) :
    ∃ f' past', Ends (handleAll .fresh (fun id () => assign (.of e) id) ()) f w () f'
        { w with seeds := w.seeds.tail } ∧
      Staffed c .idle past' [] f' { w with seeds := w.seeds.tail } ∧ Assigned e e₀ past' 0 := by
  rcases h.member with ⟨id, m, hsole, hs, hattended⟩
  -- the worker takes the assignment before the fleet moves on: what it has sent since is still
  -- nothing
  rcases meets_assignment (w := w) hrebuilds htext hattended with
    ⟨l, past', hm, hattended', hassigned⟩
  have hsource : m.state ∈ [MemberState.fresh, .pending] := by
    rw [hs]
    decide
  rcases hsole.ends_tell hm hsource with ⟨f', htell, hsole'⟩
  rw [← assign_eq_tell] at htell
  refine ⟨f', past', ?_, ⟨h.door, id, _, hsole', rfl, hattended'⟩, hassigned⟩
  -- told, the member is idle, so the loop finds no fresh member left
  exact ends_handleAll_of_one (hsole.find? hs) htell (hsole'.find?_eq_none nofun)

/-- A member that is ready is handed a work unit. -/
theorem Staffed.ends_handWork (hunit : c.workUnit = 0) (hreproduces : Reproduces e e₀)
    (hnumber : (Experiment.parameter e).isNaN = false)
    (hcount : 8 * Experiment.count e ≤ maxPayload) (hassigned : Assigned e e₀ past n)
    (h : Staffed c .idle past [] f w) :
    ∃ f' past' r, Ends (handleAll .idle (fun id () => handWork id) ()) f w () f'
        { w with spans := w.spans.tail } ∧
      Staffed c .working past' r.encode f' { w with spans := w.spans.tail } ∧
      Assigned e e₀ past' (n + 1) ∧ HoldsSample e n r := by
  rcases h.member with ⟨id, m, hsole, hs, hattended⟩
  -- the reply is on its way at once: the worker samples as soon as it has the work unit
  rcases meets_workUnit (w := w) hunit hreproduces hnumber hcount hassigned hattended with
    ⟨l, past', r, hm, hattended', hassigned', hsample⟩
  have hsource : m.state ∈ [MemberState.idle] := by
    rw [hs]
    decide
  rcases hsole.ends_tell hm hsource with ⟨f', htell, hsole'⟩
  rw [← handWork_eq_tell] at htell
  refine ⟨f', past', r, ?_, ⟨h.door, id, _, hsole', rfl, hattended'⟩, hassigned', hsample⟩
  exact ends_handleAll_of_one (hsole.find? hs) htell (hsole'.find?_eq_none nofun)

/-! ## Waits -/

/-- The sweep marks the only member if it can be read. -/
theorem Staffed.ends_sweep {id : MemberId} {m : Member (WorkerEnd E)} (hsole : f.Sole id m)
    (hattended : m.link.Attended c past out) :
    ∃ f' m', Ends sweep f w () f' w ∧ f'.Sole id m' ∧ m'.link.Attended c past out ∧
      (m'.state = .pending ∧ out ≠ [] ∨
        m'.state = m.state ∧ m.link.unread = [] ∧ m.link.remote.arrived = []) := by
  rcases hattended.readiness (Ensemble E) with ⟨hready, hattended'⟩
  -- an attended link is readable or quiet, never gone; so the sweep drops nobody
  have hpresent : Member.isGone (Ensemble E) m = false := by
    unfold Member.isGone
    rcases hready with ⟨hunread, -⟩ | ⟨hquiet, -⟩
    · rw [hunread]
      rfl
    · rw [hquiet]
      rfl
  rcases hsole.ends_sweep hpresent with ⟨f', hsweep, hsole'⟩
  refine ⟨f', _, hsweep, hsole', hattended', ?_⟩
  unfold Member.looked
  rcases hready with ⟨hunread, hout⟩ | ⟨hquiet, hnothing⟩
  · exact .inl ⟨if_pos hunread, hout⟩
  · refine .inr ⟨if_neg ?_, hnothing⟩
    rw [hquiet]
    nofun

/-- In a wait for the result of a work unit the result comes, or the wait is held up. -/
theorem Staffed.ends_wait (hout : out ≠ []) (h : Staffed c .working past out f w) :
    ∃ f' w' s, (∃ ev, Ends (waitForEvent true) f w ev f' w') ∧ Staffed c s past out f' w' ∧
      w'.recorder = w.recorder ∧
      (s = .working ∧ w'.holdups < w.holdups ∨ s = .pending ∧ w'.holdups ≤ w.holdups) := by
  rcases h.member with ⟨id, m, hsole, hs, rest, hrest, hattends⟩
  rcases hsole.ends_act (w := w.beginWait) with ⟨g, hact, hsole₁⟩
  have hdeliver : Link.Attended c past ⟨m.link.unread, w.beginWait.deliverTo m.link.remote⟩ out :=
    ⟨rest, hrest, hattends.deliver _⟩
  rcases Staffed.ends_sweep (w := w.beginWait) hsole₁ hdeliver with
    ⟨f', m', hsweep, hsole', hattended', hstate⟩
  have hnone : ∀ quiet, offered (ρ := WorkerEnd E) quiet w.beginWait = (none, w.beginWait) := by
    intro quiet
    change w.beginWait.offer = _
    unfold Ensemble.offer
    rw [show w.beginWait.door = [] from h.door]
    cases w.beginWait.current.joining <;> rfl
  have hle : w.beginWait.holdups ≤ w.holdups := by
    simp [Ensemble.holdups, Ensemble.beginWait]
  refine ⟨f', w.beginWait, m'.state, ends_waitForEvent_of_none hact hnone hsweep,
    ⟨h.door, id, m', hsole', rfl, hattended'⟩, rfl, ?_⟩
  rcases hstate with ⟨hpending, -⟩ | ⟨hsame, hunread, harrived⟩
  · exact .inr ⟨hpending, hle⟩
  · refine .inl ⟨hsame.trans hs, ?_⟩
    -- had the wait not been held up, everything would have arrived
    cases hspells : w.spells with
    | cons spell spells => simp [Ensemble.holdups, Ensemble.beginWait, hspells]
    | nil =>
      have hdelivered : (w.beginWait.deliverTo m.link.remote).arrived = [] := harrived
      have hall : m.link.remote.arrived ++ m.link.remote.underway = [] := by
        simpa [Ensemble.deliverTo, Ensemble.beginWait, hspells, Spell.clear, WorkerEnd.deliver]
          using hdelivered
      rw [← hattends.replies, hall, show m.link.unread = [] from hunread] at hrest
      exact absurd hrest hout

/-- In a wait with the worker at the door it joins, or the wait is held up. -/
theorem AtDoor.ends_wait (hname : c.name.utf8ByteSize ≤ maxPayload) (h : AtDoor c f w) :
    ∃ f' w', (∃ ev, Ends (waitForEvent true) f w ev f' w') ∧ w'.recorder = w.recorder ∧
      w'.holdups < w.holdups ∧ (AtDoor c f' w' ∨ ∃ past, Staffed c .fresh past [] f' w') := by
  rcases h.door with ⟨x, hdoor, hattends⟩
  have hact := ends_act_of_nobody (w := w.beginWait) h.nobody
  cases hjoining : w.beginWait.current.joining with
  | true =>
    let v : Ensemble E := { w.beginWait with door := [] }
    have hsome : ∀ quiet, offered quiet w.beginWait = (some (.ok x), v) := by
      intro quiet
      change w.beginWait.offer = _
      unfold Ensemble.offer
      rw [show w.beginWait.door = [x] from hdoor, hjoining]
    rcases meets_nameOf (w := v) hname (Link.offers_new hattends) with ⟨l, hnamed, hattended⟩
    have hsole := sole_track h.nobody l c.name
    rcases Staffed.ends_sweep (w := v) hsole hattended with
      ⟨f', m', hsweep, hsole', hattended', hstate⟩
    refine ⟨f', v, ends_waitForEvent_of_joined hact hsome hnamed hsweep, rfl, ?_, .inr ⟨_, rfl, _,
      m', hsole', ?_, hattended'⟩⟩
    · simp [v, Ensemble.holdups, Ensemble.beginWait, hdoor]
    · rcases hstate with ⟨-, hnone⟩ | ⟨hsame, -⟩
      · exact absurd rfl hnone
      · exact hsame
  | false =>
    have hnone : ∀ quiet, offered (ρ := WorkerEnd E) quiet w.beginWait = (none, w.beginWait) := by
      intro quiet
      change w.beginWait.offer = _
      unfold Ensemble.offer
      rw [hjoining]
    rcases ends_sweep_of_nobody (w := w.beginWait) h.nobody with ⟨f', hsweep, hnobody⟩
    refine ⟨f', w.beginWait, ends_waitForEvent_of_none hact hnone hsweep, rfl, ?_,
      .inl ⟨hnobody, x, hdoor, hattends⟩⟩
    -- only a wait that is held up finds nobody at the door
    cases hspells : w.spells with
    | cons spell spells => simp [Ensemble.holdups, Ensemble.beginWait, hspells]
    | nil => simp [Ensemble.beginWait, hspells, Spell.clear] at hjoining

/-! ## Results -/

variable {t t' : Totals Real64} {r : WorkResult}

/-- A result of one sample adds what the sample adds. -/
theorem HoldsSample.accept_eq (h : HoldsSample e n r) (ht : t.Holds (Experiment.count e) n) :
    accept (.of e) t r = (t.accumulate (runSample e n)).map some := by
  unfold accept
  rw [if_pos h.belongs]
  exact Totals.merge_of_one ht h.batch

theorem Staffed.ends_readResults (hsample : HoldsSample e n r)
    (ht : t.Holds (Experiment.count e) n) (hacc : t.accumulate (runSample e n) = .ok t')
    (h : Staffed c .pending past r.encode f w) :
    ∃ f', Ends (readResults (.of e) t) f w (true, t') f' w ∧
      Staffed c .idle (.busyTime :: past) [] f' w := by
  rcases h.member with ⟨id, m, hsole, hs, hattended⟩
  -- the reply is read and then the busy time; behind both the worker owes nothing
  rcases meets_result (w := w) hsample.travels hattended with ⟨l, hread, hattended₁⟩
  rcases meets_busyTimeOf (w := w) hattended₁ with ⟨l', used, hbusy, hattended'⟩
  have haccept : accept (.of e) t r = .ok (some t') := by
    rw [hsample.accept_eq ht, hacc]
    rfl
  have hsole₁ : (f.withLink id l).Sole id { m with link := l } := hsole.modifyMember _
  rcases hsole₁.ends_conclude hbusy hs with ⟨f', hconclude, hsole'⟩
  refine ⟨f', ?_, h.door, id, _, hsole', rfl, hattended'⟩
  -- the member is concluded and idle, so the loop over pending members is over
  refine ends_handleAll_of_one (hsole.find? hs) (ends_readResult.2 (.inr ?_))
    (hsole'.find?_eq_none nofun)
  exact ⟨m, l, w, hsole.get?, .inl ⟨r, hread, .inr ⟨t', haccept, rfl, hconclude⟩⟩⟩

theorem Staffed.breaks_readResults {fault : TotalsFault} (hsample : HoldsSample e n r)
    (ht : t.Holds (Experiment.count e) n)
    (hacc : t.accumulate (runSample e n) = .error fault)
    (h : Staffed c .pending past r.encode f w) :
    Breaks (readResults (.of e) t) f w (.totals fault) w := by
  rcases h.member with ⟨id, m, hsole, hs, hattended⟩
  rcases meets_result (w := w) hsample.travels hattended with ⟨l, hread, -⟩
  have haccept : accept (.of e) t r = .error fault := by
    rw [hsample.accept_eq ht, hacc]
    rfl
  -- the only pending member is the first that the loop comes to
  refine (breaks_handleAll_iff lessens_readResult).2
    ⟨id, _, f, w, .none, hsole.find? hs, breaks_readResult.2 ⟨m, l, hsole.get?, .inr ?_⟩⟩
  exact ⟨r, w, hread, .inl ⟨fault, haccept, rfl, rfl⟩⟩

/-! ## Phases -/

/-- The phases of a run that has got `n` samples. -/
inductive Phase (c : WorkerConfig) (e e₀ : E) (f : Fleet (WorkerEnd E)) (w : Ensemble E) :
    (n : ℕ) → Prop
  | door (atDoor : AtDoor c f w) : Phase c e e₀ f w 0
  | fresh {past : List Turn} (staffed : Staffed c .fresh past [] f w) : Phase c e e₀ f w 0
  | idle {past : List Turn} {n : ℕ} (staffed : Staffed c .idle past [] f w)
      (assigned : Assigned e e₀ past n) : Phase c e e₀ f w n
  | working {past : List Turn} {n : ℕ} {r : WorkResult}
      (staffed : Staffed c .working past r.encode f w) (assigned : Assigned e e₀ past (n + 1))
      (sample : HoldsSample e n r) : Phase c e e₀ f w n

/-- A worker with work units of one sample, and an experiment that it reproduces, neither of which
has a text or a vector that is too long to be sent. -/
structure Suits (c : WorkerConfig) (e e₀ : E) : Prop extends Reproduces e e₀ where
  unit : c.workUnit = 0
  name : c.name.utf8ByteSize ≤ maxPayload
  system : (Experiment.toText e).utf8ByteSize ≤ maxPayload
  dimension : 8 * Experiment.count e ≤ maxPayload
  number : (Experiment.parameter e).isNaN = false

/-- How a pass has waited, before which there were `k` holdups: in vain, or until a sample has
come. -/
inductive Waited (c : WorkerConfig) (e e₀ : E) (n k : ℕ) (f' : Fleet (WorkerEnd E))
    (w' : Ensemble E) : Prop
  | held (phase : Phase c e e₀ f' w' n) (nothing : f'.find? .pending = none)
      (holdups : w'.holdups < k)
  | come {past : List Turn} {r : WorkResult} (staffed : Staffed c .pending past r.encode f' w')
      (assigned : Assigned e e₀ past (n + 1)) (sample : HoldsSample e n r)
      (holdups : w'.holdups ≤ k)

theorem Staffed.find?_eq_none {s' : MemberState} (h : Staffed c s past out f w) (hne : s ≠ s') :
    f.find? s' = none := by
  rcases h.member with ⟨id, m, hsole, rfl, -⟩
  exact hsole.find?_eq_none hne

theorem waited_working (h : Staffed c .working past r.encode f w)
    (hassigned : Assigned e e₀ past (n + 1)) (hsample : HoldsSample e n r) :
    ∃ f' w', (∃ ev, Ends (waitForEvent true) f w ev f' w') ∧ w'.recorder = w.recorder ∧
      Waited c e e₀ n w.holdups f' w' := by
  rcases h.ends_wait r.encode_ne_nil with ⟨f', w', s, hwait, hstaffed, hrecorder, hs⟩
  refine ⟨f', w', hwait, hrecorder, ?_⟩
  rcases hs with ⟨rfl, hholdups⟩ | ⟨rfl, hholdups⟩
  · exact .held (.working hstaffed hassigned hsample) (hstaffed.find?_eq_none nofun) hholdups
  · exact .come hstaffed hassigned hsample hholdups

theorem waited_door (hname : c.name.utf8ByteSize ≤ maxPayload) (h : AtDoor c f w) :
    ∃ f' w', (∃ ev, Ends (waitForEvent true) f w ev f' w') ∧ w'.recorder = w.recorder ∧
      Waited c e e₀ 0 w.holdups f' w' := by
  rcases h.ends_wait hname with ⟨f', w', hwait, hrecorder, hholdups, hdoor | ⟨past, hstaffed⟩⟩
  · exact ⟨f', w', hwait, hrecorder, .held (.door hdoor) (find?_of_nobody hdoor.nobody) hholdups⟩
  · have hnone : f'.find? .pending = none := hstaffed.find?_eq_none nofun
    exact ⟨f', w', hwait, hrecorder, .held (.fresh hstaffed) hnone hholdups⟩

theorem ends_getReady_of {a : Assignment} {f₁ f₂ f' : Fleet (WorkerEnd E)} {w₁ w₂ w' : Ensemble E}
    (hassign : Ends (handleAll .fresh (fun id () => assign a id) ()) f w () f₁ w₁)
    (hwork : Ends (handleAll .idle (fun id () => handWork id) ()) f₁ w₁ () f₂ w₂)
    (hwait : ∃ ev, Ends (waitForEvent true) f₂ w₂ ev f' w') :
    ∃ ev, Ends (getReady a) f w ev f' w' := by
  rcases hwait with ⟨ev, hwait⟩
  exact ⟨ev, (ends_bind_of_ends hassign).2 ((ends_bind_of_ends hwork).2 hwait)⟩

/-- Whatever phase it is in, a pass gets the worker to work and waits. -/
theorem ends_getReady (hsuits : Suits c e e₀) (h : Phase c e e₀ f w n) :
    ∃ f' w', (∃ ev, Ends (getReady (.of e)) f w ev f' w') ∧ w'.recorder = w.recorder ∧
      Waited c e e₀ n w.holdups f' w' := by
  cases h with
  | door h =>
    rcases waited_door hsuits.name h with ⟨f', w', hwait, hrecorder, hwaited⟩
    -- nobody to assign to and nobody to hand work to: the wait may let the worker in
    have hnobody (s : MemberState) : f.find? s = none := find?_of_nobody h.nobody
    exact ⟨f', w', ends_getReady_of (ends_handleAll_of_none (hnobody _))
      (ends_handleAll_of_none (hnobody _)) hwait, hrecorder, hwaited⟩
  | fresh h =>
    -- both loops find the member, one after the other
    rcases h.ends_assign hsuits.toRebuilds hsuits.system with ⟨f₁, past₁, hassign, h₁, hassigned₁⟩
    rcases h₁.ends_handWork hsuits.unit hsuits.toReproduces hsuits.number hsuits.dimension
      hassigned₁ with ⟨f₂, past₂, r, hwork, h₂, hassigned₂, hsample⟩
    rcases waited_working h₂ hassigned₂ hsample with ⟨f', w', hwait, hrecorder, hwaited⟩
    exact ⟨f', w', ends_getReady_of hassign hwork hwait, hrecorder, hwaited⟩
  | idle h hassigned =>
    rcases h.ends_handWork hsuits.unit hsuits.toReproduces hsuits.number hsuits.dimension
      hassigned with ⟨f₂, past₂, r, hwork, h₂, hassigned₂, hsample⟩
    rcases waited_working h₂ hassigned₂ hsample with ⟨f', w', hwait, hrecorder, hwaited⟩
    exact ⟨f', w', ends_getReady_of (h.ends_other nofun) hwork hwait, hrecorder, hwaited⟩
  | working h hassigned hsample =>
    -- at work since an earlier pass: neither loop is about it
    rcases waited_working h hassigned hsample with ⟨f', w', hwait, hrecorder, hwaited⟩
    exact ⟨f', w', ends_getReady_of (h.ends_other nofun) (h.ends_other nofun) hwait, hrecorder,
      hwaited⟩

/-! ## Passes -/

/-- What a pass comes to in a run that has got `n` samples. -/
inductive Passed (c : WorkerConfig) (e e₀ : E) (s : Estimator E) (n : ℕ) (f : Fleet (WorkerEnd E))
    (w : Ensemble E) : Prop
  | held {f' : Fleet (WorkerEnd E)} {w' : Ensemble E} (ends : Ends (s.pass (.of e)) f w s f' w')
      (phase : Phase c e e₀ f' w' n) (recorder : w'.recorder = w.recorder)
      (holdups : w'.holdups < w.holdups)
  | sampled {t : Totals Real64} {past : List Turn} {f' : Fleet (WorkerEnd E)} {w' : Ensemble E}
      {workers : Option ℕ} {speedup : Option Real64}
      (adds : s.totals.accumulate (runSample e n) = .ok t)
      (ends : Ends (s.pass (.of e)) f w { s with totals := t } f' w')
      (staffed : Staffed c .idle past [] f' w') (assigned : Assigned e e₀ past (n + 1))
      (recorder : w'.recorder = w.recorder.add
        (.ofEstimate (Estimator.evaluate { s with totals := t }) workers speedup))
      (holdups : w'.holdups ≤ w.holdups)
  | overflows {fault : TotalsFault} {w' : Ensemble E}
      (adds : s.totals.accumulate (runSample e n) = .error fault)
      (breaks : Breaks (s.pass (.of e)) f w (.totals .countOverflow) w')

/-- A report goes to the recorder. -/
theorem ends_afterReading_added {s : Estimator E} :
    ∃ w' workers speedup, Ends (s.afterReading (true, t)) f w { s with totals := t } f w' ∧
      w'.door = w.door ∧ w'.holdups = w.holdups ∧
      w'.recorder = w.recorder.add
        (.ofEstimate (Estimator.evaluate { s with totals := t }) workers speedup) := by
  let workers := some f.size
  let speedup := some (f.speedup (World.elapsed (WorkerEnd E) w))
  refine ⟨{ w with
    recorder := w.recorder.add
      (.ofEstimate (Estimator.evaluate { s with totals := t }) workers speedup)
    clock := w.clock.tail }, workers, speedup, ?_, rfl, rfl, rfl⟩
  simp only [Estimator.afterReading, if_true, ends_getFleet_bind, ends_getWorld_bind,
    ends_modifyWorld_bind]
  exact ends_pure.2 ⟨rfl, rfl, rfl⟩

theorem passed {s : Estimator E} (hsuits : Suits c e e₀)
    (ht : s.totals.Holds (Experiment.count e) n) (h : Phase c e e₀ f w n) : Passed c e e₀ s n f w := by
  rcases ends_getReady hsuits h with ⟨f₁, w₁, ⟨ev, hready⟩, hrecorder, hwaited⟩
  have hpass : (s.pass (.of e) : FleetM (Ensemble E) (WorkerEnd E) (Estimator E)) = _ :=
    Estimator.pass_eq (.of e) s
  cases hwaited with
  | held phase nothing holdups =>
    -- held up: no result is read, and the totals stay
    have hread : Ends (readResults (.of e) s.totals) f₁ w₁ (false, s.totals) f₁ w₁ :=
      ends_handleAll_of_none nothing
    refine .held ?_ phase hrecorder holdups
    rw [hpass]
    exact (ends_bind_of_ends hready).2
      ((ends_bind_of_ends hread).2 (ends_pure.2 ⟨rfl, rfl, rfl⟩))
  | @come past r staffed assigned sample holdups =>
    -- the reply has come; whether its sample can be added depends on the count alone
    cases hadds : s.totals.accumulate (runSample e n) with
    | ok t =>
      rcases staffed.ends_readResults sample ht hadds with ⟨f', hread, staffed'⟩
      rcases ends_afterReading_added (f := f') (w := w₁) (t := t) (s := s) with
        ⟨w', workers, speedup, hafter, hdoor, hsame, hreport⟩
      rw [hrecorder] at hreport
      have hstaffed : Staffed c .idle (.busyTime :: past) [] f' w' :=
        ⟨hdoor.trans staffed'.door, staffed'.member⟩
      refine .sampled hadds ?_ hstaffed assigned hreport (hsame.trans_le holdups)
      rw [hpass]
      exact (ends_bind_of_ends hready).2 ((ends_bind_of_ends hread).2 hafter)
    | error fault =>
      have hbreaks := staffed.breaks_readResults sample ht hadds
      -- the reply is of the dimension, so nothing but the count can be at fault
      obtain rfl := Totals.fault_of_accumulate ht.fits (length_runSample e n) hadds
      have hbroken : Breaks (s.pass (.of e)) f w (.totals .countOverflow) w₁ := by
        rw [hpass]
        exact (breaks_bind_of_ends hready).2 (breaks_bind.2 (.inl hbreaks))
      exact .overflows hadds hbroken

end FleetEstimate
