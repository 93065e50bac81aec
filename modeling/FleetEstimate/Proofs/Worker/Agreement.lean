import FleetEstimate.Coordinator
import FleetEstimate.Proofs.Real64.Order
import FleetEstimate.Proofs.Worker.Conversation

/-!
# A coordinator and a worker agree

What a coordinator sends a worker to hand it a run and a work unit, the worker reads as three
requests. Its reply is one result, which the coordinator reads, recognizes as one of its run,
and adds to its totals.
-/

namespace FleetEstimate

variable {E : Type} [Experiment E] {ω : Type}

/-! ## What a coordinator sends -/

section Sending

variable {ρ : Type} [Remote ω ρ]

theorem sends_system {text : String} (hsize : text.utf8ByteSize ≤ maxPayload) :
    Sends (do Link.call receiveSystemCall; Link.sendText text : LinkM ω ρ Unit)
      (Request.system text).encode := by
  have hall := (Link.sends_call (ω := ω) (ρ := ρ) Request.size_calls.2.1).bind
    (Link.sends_sendText hsize)
  rwa [List.append_assoc] at hall

theorem sends_parameter (value : Real64) :
    Sends (do Link.call receiveParameterCall; Link.sendReal value : LinkM ω ρ Unit)
      (Request.parameter value).encode := by
  have hall := (Link.sends_call (ω := ω) (ρ := ρ) Request.size_calls.2.2).bind
    (Link.sends_sendReal value)
  rwa [List.append_assoc] at hall

theorem sends_workCall : Sends (Link.call workCall : LinkM ω ρ Unit) Request.work.encode :=
  Link.sends_call Request.size_calls.1

/-- An assignment is two requests. -/
theorem Assignment.send_eq (a : Assignment) :
    (a.send : LinkM ω ρ Unit) = (do
      (do Link.call receiveSystemCall; Link.sendText a.system)
      (do Link.call receiveParameterCall; Link.sendReal a.parameter)) := by
  rw [bind_assoc]
  rfl

theorem Assignment.sends_send {a : Assignment} (hsize : a.system.utf8ByteSize ≤ maxPayload) :
    Sends (a.send : LinkM ω ρ Unit)
      ((Request.system a.system).encode ++ (Request.parameter a.parameter).encode) := by
  rw [send_eq]
  exact (sends_system hsize).bind (sends_parameter a.parameter)

end Sending

/-- The requests by which a coordinator gives a worker its assignment and a work unit. -/
def Assignment.orders (a : Assignment) : List Request :=
  [.system a.system, .parameter a.parameter, .work]

/-- A coordinator sends the requests of an assignment. -/
theorem Assignment.sentBy_eq {a : Assignment} (hsize : a.system.utf8ByteSize ≤ maxPayload) :
    Stream.sentBy (do a.send; Link.call workCall) = a.orders.flatMap Request.encode := by
  rw [Stream.sentBy_eq ((sends_send hsize).bind sends_workCall)]
  simp [orders]

/-! ## What a worker makes of it -/

/-- A worker that is given the text and the parameter of the experiment `e` rebuilds one like it
from the text, `e₀`: of its dimension, and with its parameter once that is set. -/
structure Rebuilds (e e₀ : E) : Prop where
  text : Experiment.ofText (Experiment.toText e) = .ok e₀
  count : ∀ seed, Experiment.count (Experiment.setParameter (Experiment.parameter e)
    (Experiment.seed seed e₀)) = Experiment.count e
  parameter : ∀ seed n, Experiment.parameter (Experiment.skip n (Experiment.setParameter
    (Experiment.parameter e) (Experiment.seed seed e₀))) = Experiment.parameter e

theorem Worked.fits {text : String} {e : E} {past : List Turn} {drawn : ℕ} {r : WorkResult}
    (h : Worked text e past drawn r) : r.batch.Fits (Experiment.count e) :=
  (Totals.fits_zero _).accumulateAll h.totals

theorem Worked.travels {text : String} {e : E} {past : List Turn} {drawn : ℕ} {r : WorkResult}
    (h : Worked text e past drawn r) (hfit : 8 * Experiment.count e ≤ maxPayload) : r.Travels := by
  refine ⟨?_, ?_, ?_⟩
  · rw [h.digest]
    exact Digest.size_toHex _
  · rw [h.fits.1]
    exact hfit
  · rw [h.fits.2]
    exact hfit

/-- A result with the digest and the parameter of an assignment matches it, unless the parameter
is a NaN. -/
theorem WorkResult.matches_iff {r : WorkResult} {d : Digest} {x : Real64} (hdigest : r.digest = d.toHex)
    (hparameter : r.parameter = x) : r.Matches d x ↔ x.isNaN = false := by
  unfold Matches
  rw [hdigest, hparameter, Digest.ofHex_toHex, Real64.beq_self_iff]
  exact and_iff_right rfl

/-- A batch of the dimension of totals is added to them, unless the count leaves 64 bits. -/
theorem Totals.merge_of_fits {t batch : Totals Real64} {k : ℕ} (ht : t.Fits k)
    (hbatch : batch.Fits k) :
    t.merge batch = (addCounts t.samples batch.samples).map fun samples => some
      ⟨t.sum.zipWith (· + ·) batch.sum, t.sumSq.zipWith (· + ·) batch.sumSq, samples⟩ := by
  have hfits : batch.sum.length = t.count ∧ batch.sumSq.length = t.count :=
    ⟨hbatch.1.trans ht.1.symm, hbatch.2.trans ht.1.symm⟩
  unfold merge
  rw [if_pos hfits]
  cases addCounts t.samples batch.samples <;> rfl

variable [WorkerWorld ω] {c : WorkerConfig} {e e₀ : E} {w : ω} {x : Stream} {n : ℕ}

/-- What the outside world makes of a work unit that comes after a parameter. -/
def firstSpan (c : WorkerConfig) (w : ω) : WorkSpan :=
  (WorkerWorld.span c.workUnit (WorkerWorld.freshSeed w).2).1

/-- The experiment that a worker samples for the first work unit of an assignment. -/
def firstSystem (e e₀ : E) (w : ω) : E :=
  Experiment.setParameter (Experiment.parameter e)
    (Experiment.seed (WorkerWorld.freshSeed w).1 e₀)

/-- A coordinator that reads the bytes of a result, however they come, gets the result and
leaves nothing. -/
theorem WorkResult.exchange_recv {r : WorkResult} (hr : r.Travels) {pieces : List Bytes}
    {ending : Ending} (hpieces : pieces.flatten = r.encode) :
    ∃ l, Stream.exchange recv (.new (.ofPieces pieces ending)) = (.ok r, l) ∧ l.unread = [] ∧
      l.remote.incoming.flatten = [] := by
  have hoffers := Link.offers_new (Stream.says_ofPieces pieces ending)
  rw [hpieces, ← List.append_nil r.encode] at hoffers
  rcases (reads_recv (Stream.supplies Unit ending []) hr).whole (w := ()) hoffers with
    ⟨l, hm, rest, hnone, hstream⟩
  rcases List.append_eq_nil_iff.1 hnone.symm with ⟨hunread, hrest⟩
  refine ⟨l, ?_, hunread, hstream.incoming.trans hrest⟩
  unfold Meets at hm
  unfold Stream.exchange
  rw [hm]

/-- A worker that is sent an assignment and one work unit replies with one result. -/
theorem serve_assignment (hrebuilds : Rebuilds e e₀)
    (htext : (Experiment.toText e).utf8ByteSize ≤ maxPayload)
    (hcount : 8 * Experiment.count (firstSystem e e₀ w) ≤ maxPayload)
    (hdrawn : (firstSpan c w).drawn c.workUnit < UInt64.size)
    (hoffers : Link.Offers (Stream.Says .closed []) (Session.new x : Session Stream E).link
      ((Assignment.of e).orders.flatMap Request.encode ++ [])) (hn : 3 < n) :
    ∃ s' w' r, Worker.serve c n (Session.new x : Session Stream E) w = (.ends (.ok ()), s', w') ∧
      Worked (Experiment.toText e) (firstSystem e e₀ w)
        [.parameter (WorkerWorld.freshSeed w).1 (Experiment.parameter e),
          .system (Experiment.toText e)] ((firstSpan c w).drawn c.workUnit) r ∧
      s'.link.remote.output = r.encode := by
  let seed := (WorkerWorld.freshSeed w).1
  let text := Experiment.toText e
  have hstanding : standing [.parameter seed (Experiment.parameter e), .system text] =
      some (text, firstSystem e e₀ w) := by
    rw [standing, standing, hrebuilds.text]
    rfl
  have hcourse : course c.workUnit (Assignment.of e).orders w =
      ([.system text, .parameter seed (Experiment.parameter e),
        .work ((firstSpan c w).drawn c.workUnit) (firstSpan c w).spent],
        (WorkerWorld.span c.workUnit (WorkerWorld.freshSeed w).2).2) := rfl
  have hfits : AllFit E c [] [.system text, .parameter seed (Experiment.parameter e),
      .work ((firstSpan c w).drawn c.workUnit) (firstSpan c w).spent] := by
    refine ⟨trivial, trivial, ⟨hdrawn, ?_⟩, trivial⟩
    intro text' e' hstanding'
    rw [hstanding] at hstanding'
    cases hstanding'
    exact hcount
  have horder : InOrder E false (Assignment.of e).orders :=
    ⟨⟨htext, e₀, hrebuilds.text⟩, rfl, rfl, trivial⟩
  rcases Worker.serve_course horder rfl hcourse hfits (.inr (by decide)) (Session.stands_new x)
    hoffers hn with ⟨s', replies, rest, hserve, hreplied, more, -, hstream⟩
  -- the first two requests have no reply
  rcases hreplied with _ | ⟨⟨⟩, _ | ⟨⟨⟩, _ | ⟨hreply, ⟨⟩⟩⟩⟩
  rcases hreply with _ | _ | _ | _ | ⟨hstanding', hworked⟩
  rw [hstanding] at hstanding'
  cases hstanding'
  have hwritten := hstream.written
  simp only [List.nil_append, List.flatten_cons, List.flatten_nil, List.append_nil] at hwritten
  exact ⟨s', _, _, hserve, hworked, hwritten⟩

/-- A worker that is sent an assignment and one work unit replies with one result. A coordinator
that reads it finds the result of that work unit and nothing behind it, which is one of its run
unless the parameter is a NaN. Its totals can be merged into totals of the dimension of the
experiment, entry by entry. -/
theorem result_of_assignment (hrebuilds : Rebuilds e e₀)
    (htext : (Experiment.toText e).utf8ByteSize ≤ maxPayload)
    (hcount : 8 * Experiment.count e ≤ maxPayload)
    (hdrawn : (firstSpan c w).drawn c.workUnit < UInt64.size)
    (hsaid : x.incoming.flatten = Stream.sentBy (do (Assignment.of e).send; Link.call workCall))
    (hclosed : x.ending = .closed) (htakes : x.maxWrite ≠ some 0 ∧ x.room = none)
    (hnew : x.output = []) (hn : 3 < n) :
    ∃ s' w' r, Worker.serve c n (Session.new x : Session Stream E) w = (.ends (.ok ()), s', w') ∧
      Worked (Experiment.toText e) (firstSystem e e₀ w)
        [.parameter (WorkerWorld.freshSeed w).1 (Experiment.parameter e),
          .system (Experiment.toText e)] ((firstSpan c w).drawn c.workUnit) r ∧
      (∀ pieces ending, pieces.flatten = s'.link.remote.output →
        ∃ l, Stream.exchange WorkResult.recv (.new (.ofPieces pieces ending)) = (.ok r, l) ∧
          l.unread = [] ∧ l.remote.incoming.flatten = []) ∧
      (r.Matches (Assignment.of e).digest (Assignment.of e).parameter ↔
        (Experiment.parameter e).isNaN = false) ∧
      ∀ t : Totals Real64, t.Fits (Experiment.count e) →
        t.merge r.batch = (addCounts t.samples r.batch.samples).map fun samples => some
          ⟨t.sum.zipWith (· + ·) r.batch.sum, t.sumSq.zipWith (· + ·) r.batch.sumSq, samples⟩ := by
  have hsize : 8 * Experiment.count (firstSystem e e₀ w) ≤ maxPayload := by
    rw [firstSystem, hrebuilds.count]
    exact hcount
  rw [Assignment.sentBy_eq htext, ← List.append_nil (List.flatMap _ _)] at hsaid
  -- what was sent is three requests in order
  have hstream : Stream.Says .closed [] x _ := ⟨hsaid, hclosed, hnew, htakes⟩
  have hoffers := Link.offers_new hstream
  rcases serve_assignment hrebuilds htext hsize hdrawn hoffers hn with
    ⟨s', w', r, hserve, hworked, hwritten⟩
  refine ⟨s', w', r, hserve, hworked, ?_, ?_, ?_⟩
  · intro pieces ending hpieces
    exact WorkResult.exchange_recv (hworked.travels hsize) (hpieces.trans hwritten)
  · -- the digest is that of the text that was sent, and the parameter has come through as well
    refine WorkResult.matches_iff hworked.digest ?_
    rw [hworked.parameter]
    exact hrebuilds.parameter _ _
  · intro t ht
    refine Totals.merge_of_fits ht ?_
    have hbatch := hworked.fits
    rwa [firstSystem, hrebuilds.count] at hbatch

open Replay (ones keepsParameter)

theorem rebuilds_ones : Rebuilds ones ones where
  text := rfl
  count _ := rfl
  parameter _ n := keepsParameter.skip n _

/-- A worker at the far end of a link over which it was assigned the ones. -/
def onesStream : Stream :=
  .ofPieces [Stream.sentBy (do (Assignment.of ones).send; Link.call workCall)] .closed

theorem result_of_ones :
    ∃ s' w' r, Worker.serve ⟨"w", 0⟩ 4 (Session.new onesStream : Session Stream Replay)
        (Ensemble.ofConfigs [] : Ensemble Replay) = (.ends (.ok ()), s', w') ∧
      Worked (Experiment.toText ones) (firstSystem ones ones (Ensemble.ofConfigs [] : Ensemble Replay))
        [.parameter 0 0, .system (Experiment.toText ones)] 1 r ∧
      (∀ pieces ending, pieces.flatten = s'.link.remote.output →
        ∃ l, Stream.exchange WorkResult.recv (.new (.ofPieces pieces ending)) = (.ok r, l) ∧
          l.unread = [] ∧ l.remote.incoming.flatten = []) ∧
      (r.Matches (Assignment.of ones).digest (Assignment.of ones).parameter ↔
        (Experiment.parameter ones).isNaN = false) ∧
      ∀ t : Totals Real64, t.Fits (Experiment.count ones) →
        t.merge r.batch = (addCounts t.samples r.batch.samples).map fun samples => some
          ⟨t.sum.zipWith (· + ·) r.batch.sum, t.sumSq.zipWith (· + ·) r.batch.sumSq, samples⟩ :=
  result_of_assignment (c := ⟨"w", 0⟩) rebuilds_ones (by decide) (by decide) (by decide)
    (List.append_nil _) rfl ⟨nofun, rfl⟩ rfl (by decide)

end FleetEstimate
