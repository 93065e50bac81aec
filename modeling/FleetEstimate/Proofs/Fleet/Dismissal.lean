import FleetEstimate.Proofs.Fleet.Confirmation
import FleetEstimate.Proofs.Worker.Dismissal

/-!
# How a fleet is dismissed

A shutdown tells every member that its service ends, one after the other, and goes on with the
next one whatever has come of it. After runs and a settlement no member owes anything, and the
last request of every one has a reply: what it is told reaches it between two requests, and its
service ends well.
-/

namespace FleetEstimate

/-! ## One member -/

/-- A link before and after it is told that the service ends, and what has come of it. -/
structure Parting (ρ : Type) where
  before : Link ρ
  result : Except LinkError Unit
  after : Link ρ

section Partings

variable {ω ρ : Type} [Remote ω ρ] {f : Fleet ρ} {w w' : ω}

/-- The links are told one after the other, and each is closed behind it. A failure is no reason
to stop. -/
inductive Farewells : List (Parting ρ) → ω → ω → Prop
  | nil (w : ω) : Farewells [] w w
  | cons {p : Parting ρ} {partings : List (Parting ρ)} {w v w' : ω}
      (told : Meets (Link.sendTag .die) p.before w (p.result.mapError .failed) p.after v)
      (rest : Farewells partings (Remote.close p.after.remote v) w') :
      Farewells (p :: partings) w w'

/-- A link can be told, or it fails. -/
theorem exists_parting (l : Link ρ) (w : ω) :
    ∃ (p : Parting ρ) (v : ω), p.before = l ∧
      Meets (Link.sendTag .die) p.before w (p.result.mapError .failed) p.after v := by
  rcases hrun : ((Link.sendTag .die : LinkM ω ρ Unit).run.run l).run w with ⟨⟨r, l'⟩, v⟩
  have hm : Meets (Link.sendTag .die) l w r l' v := hrun
  rcases r with (e | _) | ⟨⟩
  · exact ⟨⟨l, .error e, l'⟩, v, rfl, hm⟩
  · exact absurd hm (not_stalled_writeWithin le_rfl)
  · exact ⟨⟨l, .ok (), l'⟩, v, rfl, hm⟩

theorem ends_dismiss_of_meets {p : Parting ρ} {v : ω}
    (hm : Meets (Link.sendTag .die) p.before w (p.result.mapError .failed) p.after v) :
    Fleet.Ends (Fleet.dismiss p.before) f w () f (Remote.close p.after.remote v) := by
  have hrun : Fleet.Ends (Fleet.runLink (Link.sendTag .die) p.before) f w
      (some p.result, p.after) f v :=
    Fleet.ends_runLink.2 ⟨rfl, _, hm, (Fleet.told_eq_some_iff.2 rfl).symm⟩
  exact Fleet.ends_bind.2 ⟨_, f, v, hrun, Fleet.ends_modifyWorld.2 ⟨rfl, rfl⟩⟩

theorem ends_forM_dismiss_of_farewells (members : List (MemberId × Member ρ)) (f : Fleet ρ)
    (w : ω) :
    ∃ w' partings, Fleet.Ends (members.forM fun p => Fleet.dismiss p.2.link) f w () f w' ∧
      partings.map Parting.before = members.map (fun p => p.2.link) ∧ Farewells partings w w' := by
  -- one farewell after the other; each sees the world that those before it have left
  induction members generalizing w with
  | nil => exact ⟨w, [], Fleet.ends_pure.2 ⟨rfl, rfl, rfl⟩, rfl, .nil w⟩
  | cons m members ih =>
    rcases exists_parting m.2.link w with ⟨p, v, hbefore, hm⟩
    rcases ih (Remote.close p.after.remote v) with ⟨w', partings, hends, hlinks, hfarewells⟩
    have hfirst := ends_dismiss_of_meets (f := f) hm
    rw [hbefore] at hfirst
    refine ⟨w', p :: partings, Fleet.ends_bind.2 ⟨(), f, _, hfirst, hends⟩, ?_,
      .cons hm hfarewells⟩
    rw [List.map_cons, List.map_cons, hbefore, hlinks]

/-- A shutdown tells all members. -/
theorem Fleet.farewells_of_shutdown (f : Fleet ρ) (w : ω) :
    ∃ f' w' partings, Fleet.Ends Fleet.shutdown f w () f' w' ∧
      partings.map Parting.before = f.members.entries.map (fun p => p.2.link) ∧
        Farewells partings w w' := by
  rcases ends_forM_dismiss_of_farewells f.members.entries
    { f with members := f.members.clear } w with ⟨w', partings, hends, hlinks, hfarewells⟩
  have hshutdown : Fleet.Ends Fleet.shutdown f w () { f with members := f.members.clear } w' :=
    Fleet.ends_getFleet_bind.2 (Fleet.ends_modifyFleet_bind.2 hends)
  exact ⟨_, w', partings, hshutdown, hlinks, hfarewells⟩

end Partings

/-! ## What reaches the members -/

section Orderly

variable {ρ : Type} [Traffic ρ] {p : Parting ρ} {done : List Request}

/-- A worker that has said what was heard over a link ends its service well with what it is given
since, whatever comes behind. -/
def Parting.EndsWell (p : Parting ρ) : Prop :=
  ∀ (E : Type) [Experiment E] (ν : Type) [WorkerWorld ν] (c : WorkerConfig) (v : ν),
    Worker.HasSaid E c v (Traffic.given p.before.remote) (Traffic.said p.before.remote) →
      ∀ (x : Stream) (rest : Bytes), x.incoming.flatten = Traffic.given p.after.remote ++ rest →
        x.maxWrite ≠ some 0 ∧ x.room = none →
          ∃ n s' v', Worker.serve c n (Session.new x : Session Stream E) v = (.ends (.ok ()), s', v')

/-- A member is dismissed between two requests. -/
structure Parting.Orderly (p : Parting ρ) (done : List Request) : Prop where
  /-- All that was asked is answered, and the answers are read. -/
  answered : Account p.before done []
  quiet : p.before.unread = []
  /-- What comes behind the last request is the tag that ends the service. -/
  told : p.result = .ok () →
    Traffic.given p.after.remote = done.flatMap Request.encode ++ Tag.die.toBytes
  endsWell : p.result = .ok () → p.EndsWell
  /-- If the link fails, nothing else has come behind the last request. -/
  failed : ∀ e, p.result = .error e → ∃ part, part <+: Tag.die.toBytes ∧
    Traffic.given p.after.remote = done.flatMap Request.encode ++ part

variable {ω : Type} [World ω ρ] [Workers ω ρ] {w w' : ω}

theorem Parting.endsWell_of_given (hanswered : Account p.before done []) (hconfirmed : Confirmed done)
    (hquiet : p.before.unread = [])
    (htold : Traffic.given p.after.remote = done.flatMap Request.encode ++ Tag.die.toBytes) :
    p.EndsWell := by
  rcases hanswered.read with ⟨heard, hlog, hreplies⟩
  rcases hlog with ⟨hgiven, hsaid⟩
  rw [List.append_nil] at hgiven
  rw [hquiet, List.append_nil] at hsaid
  intro E _ ν _ c v hworker x rest hx htakes
  rw [hgiven, hsaid] at hworker
  rw [htold, List.append_assoc] at hx
  -- the worker was sent whole requests, all answered, and the tag that ends its service
  rcases Worker.ends_well_of_dismissed hreplies hconfirmed hworker hx htakes (Nat.lt_succ_self _)
    with ⟨s', v', hserve⟩
  exact ⟨_, s', v', hserve⟩

theorem Parting.orderly (hanswered : Account p.before done []) (hconfirmed : Confirmed done)
    (hm : Meets (Link.sendTag .die) p.before w (p.result.mapError .failed) p.after w') :
    p.Orderly done := by
  have hquiet := hanswered.unread_eq_nil ω
  rcases hanswered.read with ⟨heard, hlog, -⟩
  rw [List.append_nil] at hlog
  rcases Link.tells_sendTag Workers.keeps .die hlog hm with ⟨part, hpart, hlog', hwhole⟩
  -- the tag was sent as a whole, if it was sent without failing
  have htold : p.result = .ok () →
      Traffic.given p.after.remote = done.flatMap Request.encode ++ Tag.die.toBytes := by
    intro hok
    rw [← hwhole () (by rw [hok]; rfl)]
    exact hlog'.1
  refine ⟨hanswered, hquiet, htold, fun hok => ?_, fun e _ => ⟨part, hpart, hlog'.1⟩⟩
  exact endsWell_of_given hanswered hconfirmed hquiet (htold hok)

/-- Whatever becomes of one link, the next members are dismissed in order. -/
theorem Farewells.orderly {partings : List (Parting ρ)} (h : Farewells partings w w')
    (hquiet : ∀ p ∈ partings, ∃ done, Account p.before done [] ∧ Confirmed done) :
    ∀ p ∈ partings, ∃ done, p.Orderly done := by
  induction h with
  | nil => exact fun p hp => absurd hp List.not_mem_nil
  | cons told _ ih =>
    rw [List.forall_mem_cons] at hquiet ⊢
    rcases hquiet with ⟨⟨done, hanswered, hconfirmed⟩, hrest⟩
    exact ⟨⟨done, Parting.orderly hanswered hconfirmed told⟩, ih hrest⟩

end Orderly

/-! ## The end of a fleet -/

namespace Moment

open Fleet

variable {ω ρ : Type} [World ω ρ] [Traffic ρ] [Workers ω ρ] {f f' : Fleet ρ} {w w' : ω}

omit [World ω ρ] [Traffic ρ] [Workers ω ρ] in
/-- Whoever is told is a member. -/
theorem exists_member_of_parting {partings : List (Parting ρ)} {p : Parting ρ}
    (hlinks : partings.map Parting.before = f.members.entries.map (fun m => m.2.link))
    (hp : p ∈ partings) : ∃ m ∈ f.members.entries, m.2.link = p.before := by
  rw [← List.mem_map, ← hlinks]
  exact List.mem_map_of_mem hp

/-- After a settlement that follows some runs, nobody owes anything, and the last request of
every member has a reply. -/
theorem AfterRuns.quiet {u : Unit} (h : AfterRuns f w) (hsettle : Ends settle f w u f' w')
    {m : MemberId × Member ρ} (hm : m ∈ f'.members.entries) :
    ∃ done, Account m.2.link done [] ∧ Confirmed done := by
  have hget : f'.get? m.1 = some m.2 := (Roster.get?_eq_some_iff _ _ _).2 hm
  rcases tasks_settle [] h.read hsettle with ⟨-, hworking, hpending⟩
  rcases confirms_settle h.confirms hsettle m.1 m.2 hget with ⟨done, hset, hnone | hconfirmed⟩
  · exact absurd hnone List.not_mem_nil
  · have howed := owed_eq_nil hworking hpending hget
    rw [Member.Settles, howed] at hset
    rw [howed, List.append_nil] at hconfirmed
    exact ⟨done, hset, hconfirmed⟩

omit [Traffic ρ] [Workers ω ρ] in
/-- A settlement that is kept waiting by no link ends. -/
theorem ends_settle_of_prompt (hprompt : ∀ v, ¬ Breaks settle f w .stalled v) :
    ∃ f' w', Ends settle f w () f' w' := by
  rcases ends_or_breaks settle f w with ⟨⟨⟩, f', w', hends⟩ | ⟨e, v, hbreaks⟩
  · exact ⟨f', w', hends⟩
  · rcases breaks_settleWithin (breaks_settle.1 hbreaks) with ⟨rfl, -⟩
    exact absurd hbreaks (hprompt v)

/-- After any runs, a settlement that is kept waiting by no link and a shutdown leave nobody. All
members are told between two requests to end, also those behind a link that fails, and whoever is
told ends its service well. -/
theorem orderly_end (h : AfterRuns f w) (hprompt : ∀ v, ¬ Breaks settle f w .stalled v) :
    ∃ f' w' f'' w'' partings, Ends settle f w () f' w' ∧ Ends shutdown f' w' () f'' w'' ∧
      (∀ id, f''.get? id = none) ∧
      partings.map Parting.before = f'.members.entries.map (fun p => p.2.link) ∧
      Farewells partings w' w'' ∧ ∀ p ∈ partings, ∃ done, p.Orderly done := by
  rcases ends_settle_of_prompt hprompt with ⟨f', w', hsettle⟩
  rcases farewells_of_shutdown f' w' with ⟨f'', w'', partings, hshutdown, hlinks, hfarewells⟩
  refine ⟨f', w', f'', w'', partings, hsettle, hshutdown, (ends_shutdown hshutdown).2, hlinks,
    hfarewells, hfarewells.orderly fun p hp => ?_⟩
  -- every farewell is that of a member, and runs leave members in good standing
  rcases exists_member_of_parting hlinks hp with ⟨m, hm, hbefore⟩
  rw [← hbefore]
  exact h.quiet hsettle hm

/-- Two workers at the door. The first result raises the interrupt, and in the wait after the one
in which it comes no reply arrives. -/
def twoAtTheDoor : Paced Replay where
  toEnsemble := { Ensemble.ofConfigs [.standard 0, .standard 1] with
    recorder := .new (some 1) false
    spells := [.clear, .clear, ⟨some 0, false⟩] }

/-- The interrupt is not raised any more. -/
def lowered (w : Paced Replay) : Paced Replay where
  toEnsemble := { w.toEnsemble with recorder := .new none false }

/-- A run whose samples are all one. -/
def onesRun : FleetM (Paced Replay) (Traced Replay)
    (Except EstimationError (Estimate Real64 × Estimator Replay)) :=
  (⟨Estimator.ones, .standard, 1, .zero 1⟩ : Estimator Replay).estimateDistributed

/-- What a worker at the far end writes if it reads all that it was given. -/
def writtenBy (x : Traced Replay) : Bytes :=
  let stream : Stream := .ofPieces [x.given] .waiting
  (Worker.serve x.worker.config 12 (Session.new stream : Session Stream Replay)
    twoAtTheDoor).2.1.link.remote.output

theorem hasSaid_of_writtenBy {x : Traced Replay} (h : x.said <+: writtenBy x) :
    Worker.HasSaid Replay x.worker.config twoAtTheDoor x.given x.said := by
  refine ⟨.ofPieces [x.given] .waiting, 12, ?_, rfl, ⟨nofun, rfl⟩, h⟩
  exact List.append_nil x.given

/-- Two workers that are both working when the second run ends. -/
theorem orderly_end_of_two_workers :
    ∃ (f : Fleet (Traced Replay)) (w : Paced Replay) (f' : Fleet (Traced Replay)) (w' : Paced Replay)
      (f'' : Fleet (Traced Replay)) (w'' : Paced Replay) (partings : List (Parting (Traced Replay))),
      AfterRuns f w ∧ f.idsIn .working = [0, 1] ∧ Ends settle f w () f' w' ∧
      Ends shutdown f' w' () f'' w'' ∧ (∀ id, f''.get? id = none) ∧ partings.length = 2 ∧
      Farewells partings w' w'' ∧ w''.exits.map (fun e => e.2.toBool) = [true, true] ∧
      ∀ p ∈ partings, (∃ done, p.Orderly done) ∧ ∃ c,
        Worker.HasSaid Replay c twoAtTheDoor p.before.remote.given p.before.remote.said := by
  -- two runs, a settlement and a shutdown, computed
  have hends : ∃ y f w, Ends (onesRun >>= fun _ => onesRun) .empty twoAtTheDoor y f w ∧
      f.idsIn .working = [0, 1] ∧ ∃ u f' w', Ends settle f (lowered w) u f' w' ∧
        (f'.members.entries.length = 2 ∧
          ∀ m ∈ f'.members.entries, m.2.link.remote.said <+: writtenBy m.2.link.remote) ∧
        ∃ u f'' w'', Ends shutdown f' w' u f'' w'' ∧
          w''.exits.map (fun e => e.2.toBool) = [true, true] := by
    decide +kernel
  rcases hends with ⟨y, f, w, hruns, hworking, ⟨⟩, f', w', hsettle, ⟨hlength, hwritten⟩, ⟨⟩, f'', w'',
    hshutdown, hexits⟩
  rcases ends_bind.1 hruns with ⟨y', g, v, hfirst, hsecond⟩
  have hafter : AfterRuns f (lowered w) := .passed (.ran (.ran (.none _) hfirst) hsecond) _
  rcases orderly_end hafter fun _ => hsettle.not_breaks with
    ⟨_, _, _, _, partings, hsettle', hshutdown', hnobody, hlinks, hfarewells, horderly⟩
  -- the settlement and the shutdown of the theorem are the computed ones
  rcases hsettle.unique hsettle' with ⟨-, rfl, rfl⟩
  rcases hshutdown.unique hshutdown' with ⟨-, rfl, rfl⟩
  refine ⟨f, lowered w, f', w', f'', w'', partings, hafter, hworking, hsettle, hshutdown, hnobody, ?_,
    hfarewells, hexits, fun p hp => ⟨horderly p hp, ?_⟩⟩
  · rw [← List.length_map Parting.before, hlinks, List.length_map, hlength]
  · rcases exists_member_of_parting hlinks hp with ⟨m, hm, hbefore⟩
    rw [← hbefore]
    exact ⟨_, hasSaid_of_writtenBy (hwritten m hm)⟩

end Moment

end FleetEstimate
