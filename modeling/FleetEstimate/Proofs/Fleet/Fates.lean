import FleetEstimate.Proofs.Estimation.Totals
import FleetEstimate.Proofs.Fleet.Order
import FleetEstimate.Proofs.Fleet.Tasks
import FleetEstimate.Proofs.Wire.Forms
import FleetEstimate.Proofs.Wire.Streams
import FleetEstimate.Rehearsal.Stage

/-!
# What becomes of a member

Every task of a coordinator moves its member on, or lets it go if its link fails. A result is
added to the totals before its member is asked for its busy time, so that it counts even if the
member is lost with that. A result that is refused sends its member back to the beginning, and
nothing more is asked of it.
-/

namespace FleetEstimate

namespace Fleet

variable {ω ρ : Type} [World ω ρ] {s : MemberState} {a : Assignment}

/-! ## What is accepted -/

/-- A reply that belongs to the run and takes its count of samples out of 64 bits. -/
structure Overflows (a : Assignment) (t : Totals Real64) (r : WorkResult) : Prop where
  belongs : r.Matches a.digest a.parameter
  fits : r.batch.Fits t.count
  leaves : UInt64.size ≤ t.samples.toNat + r.batch.samples.toNat

theorem accept_eq_error_iff {t : Totals Real64} {r : WorkResult} {fault : TotalsFault} :
    accept a t r = .error fault ↔ fault = .countOverflow ∧ Overflows a t r := by
  unfold accept
  split
  · rename_i hmatches
    -- only totals that fit can overflow, and only a matching result is merged
    rw [Totals.merge_eq_error_iff]
    constructor
    · intro h
      rcases h with ⟨hfault, hfits, hleaves⟩
      exact ⟨hfault, hmatches, hfits, hleaves⟩
    · intro h
      rcases h with ⟨hfault, -, hfits, hleaves⟩
      exact ⟨hfault, hfits, hleaves⟩
  · rename_i hnot
    constructor
    · intro h
      cases h
    · intro h
      rcases h with ⟨-, hmatches, -, -⟩
      exact absurd hmatches hnot

theorem accept_eq_some_iff {t t' : Totals Real64} {r : WorkResult} :
    accept a t r = .ok (some t') ↔ r.Matches a.digest a.parameter ∧ r.batch.Fits t.count ∧
      t.samples.toNat + r.batch.samples.toNat < UInt64.size ∧ t' = t.plus r.batch := by
  unfold accept
  split
  · rename_i hmatches
    rw [Totals.merge_eq_some_iff, and_iff_right hmatches]
  · rename_i hnot
    refine iff_of_false (fun h => ?_) fun h => hnot h.1
    cases h

theorem accept_eq_none_iff {t : Totals Real64} {r : WorkResult} :
    accept a t r = .ok none ↔ ¬ (r.Matches a.digest a.parameter ∧ r.batch.Fits t.count) := by
  unfold accept
  split
  · rename_i hmatches
    rw [Totals.merge_eq_none_iff, and_iff_right hmatches]
  · rename_i hnot
    exact iff_of_true rfl fun h => hnot h.1

/-! ## Fates -/

/-- A member is told something and moves on, or it leaves. -/
inductive Telling (act : LinkM ω ρ Unit) (target : MemberState) : Fate ω ρ Unit
  | movesOn {m : Member ρ} {w w' : ω} {l : Link ρ} (told : Meets act m.link w (.ok ()) l w') :
      Telling act target m () w (some { m with link := l, state := target }) () w'
  | leaves {m : Member ρ} {w v : ω} {l : Link ρ} {e : LinkError}
      (fails : Meets act m.link w (.error (.failed e)) l v) :
      Telling act target m () w none () (Remote.close l.remote v)

/-- A member whose result was read tells its busy time and is ready, or it leaves. -/
inductive Concluding (m : Member ρ) (w : ω) : Option (Member ρ) → ω → Prop
  | ready {w' : ω} {l : Link ρ} {used : Real64}
      (tells : Meets askBusyTime m.link w (.ok used) l w') :
      Concluding m w
        (some { m with link := l, state := .idle, busyTime := m.busyTime + used }) w'
  | leaves {v : ω} {l : Link ρ} {e : LinkError}
      (fails : Meets askBusyTime m.link w (.error (.failed e)) l v) :
      Concluding m w none (Remote.close l.remote v)

/-- A result that nobody asks for any more is read. -/
inductive Discarding : Fate ω ρ Unit
  /-- What has come is no result. -/
  | garbled {m : Member ρ} {w v : ω} {l : Link ρ} {e : LinkError}
      (fails : Meets WorkResult.recv m.link w (.error (.failed e)) l v) :
      Discarding m () w none () (Remote.close l.remote v)
  | read {m : Member ρ} {x : Option (Member ρ)} {w v w' : ω} {l : Link ρ} {r : WorkResult}
      (result : Meets WorkResult.recv m.link w (.ok r) l v)
      (concluding : Concluding { m with link := l } v x w') : Discarding m () w x () w'

/-- A result of a run is read. What is handed on says whether any has been added, and holds the
totals. -/
inductive Reading (a : Assignment) : Fate ω ρ (Bool × Totals Real64)
  /-- What has come is no result. -/
  | garbled {m : Member ρ} {y : Bool × Totals Real64} {w v : ω} {l : Link ρ} {e : LinkError}
      (fails : Meets WorkResult.recv m.link w (.error (.failed e)) l v) :
      Reading a m y w none y (Remote.close l.remote v)
  /-- The result does not belong to the run or does not fit its totals. Nothing more is asked of
  the member. -/
  | refused {m : Member ρ} {y : Bool × Totals Real64} {w w' : ω} {l : Link ρ} {r : WorkResult}
      (result : Meets WorkResult.recv m.link w (.ok r) l w')
      (unfit : ¬ (r.Matches a.digest a.parameter ∧ r.batch.Fits y.2.count)) :
      Reading a m y w (some { m with link := l, state := .fresh }) y w'
  /-- The result is added, whatever becomes of the member. -/
  | added {m : Member ρ} {x : Option (Member ρ)} {y : Bool × Totals Real64} {w v w' : ω}
      {l : Link ρ} {r : WorkResult} (result : Meets WorkResult.recv m.link w (.ok r) l v)
      (belongs : r.Matches a.digest a.parameter) (fits : r.batch.Fits y.2.count)
      (counted : y.2.samples.toNat + r.batch.samples.toNat < UInt64.size)
      (concluding : Concluding { m with link := l } v x w') :
      Reading a m y w x (true, y.2.plus r.batch) w'

/-! ## Hindrances -/

/-- Nothing keeps a member from its fate. -/
def Unhindered : Hindrance ω ρ Unit := fun _ _ _ _ _ => False

/-- A result cannot be discarded: its link delivers neither the rest of it, or of the busy time,
nor its own end. -/
inductive Undiscarded : Hindrance ω ρ Unit
  | result {m : Member ρ} {w w' : ω} {l : Link ρ}
      (waits : Meets WorkResult.recv m.link w (.error .stalled) l w') :
      Undiscarded m () w .stalled w'
  | busyTime {m : Member ρ} {w v w' : ω} {l l' : Link ρ} {r : WorkResult}
      (result : Meets WorkResult.recv m.link w (.ok r) l v)
      (waits : Meets askBusyTime l v (.error .stalled) l' w') : Undiscarded m () w .stalled w'

/-- A result of a run cannot be read, or it takes the count of samples out of 64 bits. -/
inductive Unread (a : Assignment) : Hindrance ω ρ (Bool × Totals Real64)
  | result {m : Member ρ} {y : Bool × Totals Real64} {w w' : ω} {l : Link ρ}
      (waits : Meets WorkResult.recv m.link w (.error .stalled) l w') :
      Unread a m y w .stalled w'
  | busyTime {m : Member ρ} {y : Bool × Totals Real64} {w v w' : ω} {l l' : Link ρ}
      {r : WorkResult} (result : Meets WorkResult.recv m.link w (.ok r) l v)
      (belongs : r.Matches a.digest a.parameter) (fits : r.batch.Fits y.2.count)
      (waits : Meets askBusyTime l v (.error .stalled) l' w') : Unread a m y w .stalled w'
  | overflow {m : Member ρ} {y : Bool × Totals Real64} {w w' : ω} {l : Link ρ} {r : WorkResult}
      (result : Meets WorkResult.recv m.link w (.ok r) l w') (overflows : Overflows a y.2 r) :
      Unread a m y w (.totals .countOverflow) w'

/-! ## Tasks -/

variable {f f' : Fleet ρ} {w w' : ω} {id : MemberId} {m : Member ρ}

/-- If nobody has to wait for what is told, nothing keeps the members of a state that they may
leave from being told it. -/
theorem decides_tell {act : LinkM ω ρ Unit} {target : MemberState} {sources : List MemberState}
    (hprompt : Prompt act) (hsource : s ∈ sources) (htarget : target ≠ s) :
    Decides s (fun id () => tell act target sources id) (Telling act target) Unhindered := by
  -- in turn: the fate of a turn that ends, the hindrance of one that breaks off, the way out of the
  -- state
  refine ⟨?_, ?_, ?_⟩
  · intro id m b f w b' f' w' hm _ h
    refine ⟨?_, (changes_tell h).get?⟩
    rcases ends_tell.1 h with
      ⟨hnone, -⟩ | ⟨m', l, v, hm', ⟨hmeets, -, rfl, rfl⟩ | ⟨e, hmeets, hleaves⟩⟩
    · rw [hm] at hnone
      cases hnone
    · -- told: the member moves on over the link it was told on
      cases hm.symm.trans hm'
      have hnow : ((f.withLink id l).withState id target).get? id =
          some { m with link := l, state := target } := by simp [hm]
      rw [hnow]
      exact .movesOn hmeets
    · -- not told: it leaves
      cases hm.symm.trans hm'
      rw [hleaves.get?_eq_none, hleaves.2]
      exact .leaves hmeets
  · intro id m b f w e w' hm hs h
    rcases breaks_tell.1 h with ⟨m', l, hm', ⟨hmeets, rfl⟩ | ⟨-, hillegal, -⟩⟩
    · exact hprompt hmeets
    · cases hm.symm.trans hm'
      rw [hs] at hillegal
      exact absurd hsource hillegal
  · intro m b w x b' w' hturn
    cases hturn
    exact htarget

/-- A member whose result was read, over the link `l`, comes to the end of its fate. -/
theorem concluding_of_ends {l : Link ρ} {u : Unit} (hm : f.get? id = some m)
    (h : Ends (conclude id) (f.withLink id l) w u f' w') :
    Concluding { m with link := l } w (f'.get? id) w' := by
  -- the link is the only thing that reading has changed
  have hget := get?_withLink_self hm l
  rcases ends_conclude.1 h with
    ⟨hnone, -⟩ | ⟨m', l', v, hm', ⟨used, hmeets, -, rfl, rfl⟩ | ⟨e, hmeets, hleaves⟩⟩
  · rw [hget] at hnone
    cases hnone
  · cases hget.symm.trans hm'
    have hnow : ((f.withLink id l).concluded id l' used).get? id =
        some { m with link := l', state := .idle, busyTime := m.busyTime + used } := by
      simp [concluded, hm]
    rw [hnow]
    exact .ready hmeets
  · cases hget.symm.trans hm'
    rw [hleaves.get?_eq_none, hleaves.2]
    exact .leaves hmeets

theorem Concluding.state_eq {x : Member ρ} (h : Concluding m w (some x) w') : x.state = .idle := by
  cases h
  rfl

/-- A `pending` member whose result was read over the link `l` cannot be asked for its busy
time. -/
theorem waits_of_breaks_conclude {l : Link ρ} {e : FleetFault} (hm : f.get? id = some m)
    (hs : m.state = .pending) (h : Breaks (conclude id) (f.withLink id l) w e w') :
    e = .stalled ∧ ∃ l', Meets askBusyTime l w (.error .stalled) l' w' := by
  have hget := get?_withLink_self hm l
  rcases breaks_conclude_pending (stateOf?_eq_some_iff.2 ⟨_, hget, hs⟩) h with
    ⟨rfl, m', l', hm', hmeets⟩
  cases hget.symm.trans hm'
  exact ⟨rfl, l', hmeets⟩

theorem decides_discardResult : Decides .pending
    (fun id () => discardResult (ω := ω) (ρ := ρ) id) Discarding Undiscarded := by
  refine ⟨?_, ?_, ?_⟩
  · intro id m b f w b' f' w' hm _ h
    refine ⟨?_, (changes_discardResult h).get?⟩
    rcases ends_discardResult.1 h with
      ⟨hnone, -⟩ | ⟨m', l, v, hm', ⟨r, hmeets, hconclude⟩ | ⟨e, hmeets, hleaves⟩⟩
    · rw [hm] at hnone
      cases hnone
    · cases hm.symm.trans hm'
      -- read: what remains is the query for the busy time
      exact .read hmeets (concluding_of_ends hm hconclude)
    · cases hm.symm.trans hm'
      rw [hleaves.get?_eq_none, hleaves.2]
      exact .garbled hmeets
  · intro id m b f w e w' hm hs h
    rcases breaks_discardResult.1 h with ⟨m', l, hm', hbreak⟩
    cases hm.symm.trans hm'
    rcases hbreak with ⟨hmeets, rfl⟩ | ⟨r, v, hmeets, hconclude⟩
    · exact .result hmeets
    · rcases waits_of_breaks_conclude hm hs hconclude with ⟨rfl, l', hasked⟩
      exact .busyTime hmeets hasked
  · intro m b w x b' w' hturn
    -- whoever stays is idle
    cases hturn with
    | read result concluding =>
      rw [concluding.state_eq]
      decide

theorem decides_readResult :
    Decides .pending (readResult (ω := ω) (ρ := ρ) a) (Reading a) (Unread a) := by
  refine ⟨?_, ?_, ?_⟩
  · intro id m y f w y' f' w' hm _ h
    refine ⟨?_, (changes_readResult h).get?⟩
    rcases ends_readResult.1 h with
      ⟨hnone, -⟩ | ⟨m', l, v, hm', ⟨r, hmeets, hreply⟩ | ⟨e, hmeets, rfl, hleaves⟩⟩
    · rw [hm] at hnone
      cases hnone
    · cases hm.symm.trans hm'
      rcases hreply with ⟨hacc, rfl, rfl, rfl⟩ | ⟨t, hacc, rfl, hconclude⟩
      · -- nothing is asked of a member whose result is refused
        have hnow : ((f.withLink id l).withState id .fresh).get? id =
            some { m with link := l, state := .fresh } := by simp [hm]
        rw [hnow]
        exact .refused hmeets (accept_eq_none_iff.1 hacc)
      · rcases accept_eq_some_iff.1 hacc with ⟨hmatches, hfits, hcount, rfl⟩
        exact .added hmeets hmatches hfits hcount (concluding_of_ends hm hconclude)
    · cases hm.symm.trans hm'
      rw [hleaves.get?_eq_none, hleaves.2]
      exact .garbled hmeets
  · intro id m y f w e w' hm hs h
    rcases breaks_readResult.1 h with ⟨m', l, hm', hbreak⟩
    cases hm.symm.trans hm'
    rcases hbreak with ⟨hmeets, rfl⟩ | ⟨r, v, hmeets, hreply⟩
    · exact .result hmeets
    · rcases hreply with ⟨fault, hacc, rfl, rfl⟩ | ⟨t, hacc, hconclude⟩
      · -- too many samples: nothing is asked any more
        rcases accept_eq_error_iff.1 hacc with ⟨rfl, hoverflows⟩
        exact .overflow hmeets hoverflows
      · rcases accept_eq_some_iff.1 hacc with ⟨hmatches, hfits, -, -⟩
        rcases waits_of_breaks_conclude hm hs hconclude with ⟨rfl, l', hasked⟩
        exact .busyTime hmeets hmatches hfits hasked
  · intro m y w x y' w' hturn
    -- whoever stays is fresh again or idle
    cases hturn with
    | refused result unfit =>
      intro h
      cases h
    | added result belongs fits counted concluding =>
      rw [concluding.state_eq]
      decide

/-! ## One fate for each member -/

section Unique

variable {x x₁ : Option (Member ρ)} {y y' y₁ : Bool × Totals Real64} {w₁ : ω}

theorem Concluding.unique (h : Concluding m w x w') (h₁ : Concluding m w x₁ w₁) :
    x = x₁ ∧ w' = w₁ := by
  cases h with
  -- one exchange has one outcome, so the two ways exclude each other
  | ready tells =>
    cases h₁ with
    | ready tells₁ =>
      rcases tells.unique tells₁ with ⟨heq, rfl, rfl⟩
      cases heq
      exact ⟨rfl, rfl⟩
    | leaves fails₁ => cases (tells.unique fails₁).1
  | leaves fails =>
    cases h₁ with
    | ready tells₁ => cases (fails.unique tells₁).1
    | leaves fails₁ =>
      rcases fails.unique fails₁ with ⟨-, rfl, rfl⟩
      exact ⟨rfl, rfl⟩

/-- What a member has sent is garbled, refused or added, and not two of these. -/
theorem Reading.unique (h : Reading a m y w x y' w') (h₁ : Reading a m y w x₁ y₁ w₁) :
    x = x₁ ∧ y' = y₁ ∧ w' = w₁ := by
  -- the reply is the same both times, and it can be of one kind only
  cases h with
  | garbled fails =>
    cases h₁ with
    | garbled fails₁ =>
      rcases fails.unique fails₁ with ⟨-, rfl, rfl⟩
      exact ⟨rfl, rfl, rfl⟩
    | refused result₁ _ => cases (fails.unique result₁).1
    | added result₁ _ _ _ _ => cases (fails.unique result₁).1
  | refused result unfit =>
    cases h₁ with
    | garbled fails₁ => cases (result.unique fails₁).1
    | refused result₁ _ =>
      rcases result.unique result₁ with ⟨-, rfl, rfl⟩
      exact ⟨rfl, rfl, rfl⟩
    | added result₁ belongs fits _ _ =>
      cases (result.unique result₁).1
      exact absurd ⟨belongs, fits⟩ unfit
  | added result belongs fits _ concluding =>
    cases h₁ with
    | garbled fails₁ => cases (result.unique fails₁).1
    | refused result₁ unfit =>
      cases (result.unique result₁).1
      exact absurd ⟨belongs, fits⟩ unfit
    | added result₁ _ _ _ concluding₁ =>
      rcases result.unique result₁ with ⟨heq, rfl, rfl⟩
      cases heq
      rcases concluding.unique concluding₁ with ⟨rfl, rfl⟩
      exact ⟨rfl, rfl, rfl⟩

end Unique

/-! ## Every result that has come -/

/-- Far ends that close behind what they say, whatever they are told. -/
structure Closes (ω : Type) {ρ : Type} [Remote ω ρ] (Rest : ρ → Bytes → Prop) : Prop where
  supplies : Supplies ω Rest .closed
  written : KeptByWriting fun (x : ρ) (_ : ω) => ∃ b, Rest x b

/-- A player that has closed its connection is such a far end. What it has sent can still be
read. -/
theorem closes_player : Closes Stage fun (p : Player) b => p.closed = true ∧ p.sent = b := by
  refine ⟨⟨?_, ?_⟩, ?_⟩
  · intro p b w hp hne
    -- all that it has sent comes in one piece
    rcases hp with ⟨hclosed, rfl⟩
    refine ⟨p.sent, [], { p with sent := [] }, hne, (List.append_nil _).symm, ?_, hclosed, rfl⟩
    change (p.poll.1, p.poll.2, w) = _
    rw [Player.poll, if_pos hne]
  · intro p w hp
    -- then its end comes, again and again
    rcases hp with ⟨hclosed, hsent⟩
    refine ⟨p, ?_, hclosed, hsent⟩
    change (p.poll.1, p.poll.2, w) = _
    rw [Player.poll, if_neg (not_not.2 hsent), if_pos hclosed]
    rfl
  · -- it takes nothing, and that leaves it as it is
    intro bytes p w taken p' w' hp hwrite
    rcases hp with ⟨b, hclosed, hsent⟩
    change Stage.write bytes p w = _ at hwrite
    rw [Stage.write, if_pos hclosed] at hwrite
    cases hwrite
    exact ⟨b, hclosed, hsent⟩

/-- Nobody waits for a result, or for a busy time, that comes from such a far end. -/
theorem Closes.not_unread {Rest : ρ → Bytes → Prop} (h : Closes ω Rest) {b : Bytes}
    {y : Bool × Totals Real64} (hoffers : Link.Offers Rest m.link b) :
    ¬ Unread a m y w .stalled w' := by
  intro hunread
  -- a result that is read is taken from the front, and what the far end says is left behind it
  have hjudges := WorkResult.judges_recv h.supplies
  cases hunread with
  | result waits => exact hjudges.not_stalled hoffers waits
  | @busyTime m y w v w' l l' r result belongs fits waits =>
    rcases hjudges.offers hoffers result with ⟨behind, rest, -, hrest⟩
    rcases meets_bind.1 waits with ⟨_, l₁, v₁, hsend, hrecv⟩ | ⟨e, he, hsend⟩
    · -- being asked for its busy time does not make the far end say less
      rcases keeps_writeWithin h.written _ _ ⟨rest, hrest⟩ hsend with ⟨rest₁, hrest₁⟩
      have hoffers₁ : Link.Offers Rest l₁ (l₁.unread ++ rest₁) := ⟨rest₁, rfl, hrest₁⟩
      exact ((judges_receive h.supplies 8).map _).not_stalled hoffers₁ hrecv
    · cases he
      exact prompt_writeAll _ hsend

theorem Reading.count_eq {x : Option (Member ρ)} {y y' : Bool × Totals Real64}
    (h : Reading a m y w x y' w') : y'.2.count = y.2.count := by
  cases h with
  | garbled _ => rfl
  | refused _ _ => rfl
  | added _ _ fits _ _ => exact Totals.count_plus fits

theorem Fates.count_eq {ids : List MemberId} {y y' : Bool × Totals Real64}
    (h : Fates (Reading a) f f' ids y w y' w') : y'.2.count = y.2.count := by
  induction h with
  | nil => rfl
  | cons _ turn _ ih => exact ih.trans turn.count_eq

/-- Results are read in the order of their members, and each that has come is read once. It is
garbled, refused or added to the totals, one of the three; what is handed on from one member to
the next are the totals so far. Then nobody is `pending` any more, and all others are what they
were. Reading goes on to the end unless a link neither delivers nor closes, or a result takes the
count of samples out of 64 bits. -/
theorem pending_classified (a : Assignment) (t : Totals Real64) (f : Fleet ρ) (w : ω) :
    ((f.idsIn .pending).Pairwise (· < ·) ∧
        ∀ id, id ∈ f.idsIn .pending ↔ f.stateOf? id = some .pending) ∧
      ((∃ y f' w', Ends (readResults a t) f w y f' w' ∧
          Visited (Reading a) f f' (f.idsIn .pending) (false, t) w y w' ∧
          f'.NoneIn .pending ∧ y.2.count = t.count) ∨
        ∃ e w', Breaks (readResults a t) f w e w' ∧
          ∃ before id after m y g v, f.idsIn .pending = before ++ id :: after ∧
            Visited (Reading a) f g before (false, t) w y v ∧ f.get? id = some m ∧
            Unread a m y v e w') ∧
      (∀ {m : Member ρ} {y x y' x₁ y₁} {v w' w₁ : ω}, Reading a m y v x y' w' →
        Reading a m y v x₁ y₁ w₁ → x = x₁ ∧ y' = y₁ ∧ w' = w₁) ∧
      ∀ Rest : ρ → Bytes → Prop, Closes ω Rest → ∀ (m : Member ρ) (b : Bytes) y (v w' : ω),
        Link.Offers Rest m.link b → ¬ Unread a m y v .stalled w' := by
  have hthrough : GoesThrough .pending (readResult (ω := ω) (ρ := ρ) a) (Reading a) (Unread a) :=
    decides_readResult.goesThrough
  refine ⟨hthrough.members f, ?_, fun h h₁ => h.unique h₁,
    fun Rest hcloses m b y v w' hoffers => hcloses.not_unread hoffers⟩
  -- the loop visits everybody, or stops at the first member that hinders it
  rcases hthrough.outcome (false, t) f w with ⟨y, f', w', hends, hvisited, hnone⟩ | hhindered
  · exact .inl ⟨y, f', w', hends, hvisited, hnone, hvisited.fates.count_eq⟩
  · exact .inr hhindered

/-- An assignment of a system that nobody has to rebuild. -/
def trial : Assignment := ⟨"trial", .of (Text.toBytes "trial"), 0⟩

/-- A worker that has sent the result of one sample and has closed its connection since. -/
def gone : Player :=
  { Player.new 0 ⟨none, false, [], []⟩ true with
    sent := (⟨trial.digest.toHex, 0, ⟨[1], [1], 1⟩⟩ : WorkResult).encode }

/-- A fleet whose only member owes a result, and whose worker is gone. -/
def deserted : Fleet Player := ⟨Roster.empty.add ⟨.new gone, .pending, "worker", 0⟩, 0⟩

/-- Its result is added, and the member leaves. Nobody could wait for it. -/
theorem pending_of_deserted :
    (∃ y f' w', Ends (readResults trial (.zero 1)) deserted Stage.empty y f' w' ∧
        Visited (Reading trial) deserted f' [0] (false, .zero 1) Stage.empty y w' ∧
        f'.NoneIn .pending ∧ y = (true, ⟨[1], [1], 1⟩) ∧ f'.members.ids = []) ∧
      ∀ m, deserted.get? 0 = some m → ∀ y (v w' : Stage), ¬ Unread trial m y v .stalled w' := by
  -- what happens is computed; that it is one of the three outcomes is the theorem
  -- the reading is computed; that it visits the member once and cannot stall is the theorem
  have hread : ∃ y f' w', Ends (readResults trial (.zero 1)) deserted Stage.empty y f' w' ∧
      y = (true, ⟨[1], [1], 1⟩) ∧ f'.members.ids = [] := by
    decide +kernel
  rcases hread with ⟨y, f', w', hends, hy, hids⟩
  rcases pending_classified trial (.zero 1) deserted Stage.empty with
    ⟨-, hread | ⟨e, v, hbreaks, -⟩, -, hcloses⟩
  · refine ⟨?_, fun m hm y v w' => ?_⟩
    · rcases hread with ⟨y₁, f₁, w₁, hends₁, hvisited, hnone, -⟩
      cases hends.symm.trans hends₁
      exact ⟨y, f', w', hends, hvisited, hnone, hy, hids⟩
    · cases hm
      exact hcloses _ closes_player _ gone.sent y v w' (Link.offers_new ⟨rfl, rfl⟩)
  · cases hends.symm.trans hbreaks

end Fleet

end FleetEstimate
