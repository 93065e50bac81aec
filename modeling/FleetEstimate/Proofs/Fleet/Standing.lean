import FleetEstimate.Proofs.Fleet.Moments

/-!
# Every moment is sound

Where a member stands is told by the requests that are done: they settle its account with
its state, what was done since the run began comes last, and whoever is not fresh holds
the assignment of the run. Every task and every step keeps this.
-/

namespace FleetEstimate

namespace Moment

open Fleet

variable {ω ρ : Type} [World ω ρ] [Traffic ρ]

/-- Where a member stands at a moment. -/
structure Standing (run : Option Run) (added : List (Added ρ)) (id : MemberId) (m : Member ρ)
    (done : List Request) : Prop where
  settles : m.Settles done
  /-- What was done since the run began comes last. -/
  within : ∀ r, run = some r → r.begun id <+: done.flatMap Request.encode
  /-- Whoever is not fresh holds the assignment. -/
  holds : ∀ r, run = some r → m.state ≠ .fresh → held done = r.assignment.holding
  /-- More has been asked since the last result was added. -/
  later : ∀ e ∈ added, e.member = id →
    (Traffic.given e.link.remote).length < (Traffic.given m.link.remote).length

/-- The invariant of a coordinator. -/
structure Inv (m : Moment ω ρ) : Prop where
  standing : ∀ id x, m.fleet.get? id = some x → ∃ done, Standing m.run m.added id x done
  answered : ∀ e ∈ m.added, ∃ before, e.Answers ω before
  once : (m.added.map fun e => (e.member, Traffic.given e.link.remote)).Nodup
  known : ∀ e ∈ m.added, e.member < m.fleet.members.next
  new : ∀ r, m.run = some r → ∀ id, m.fleet.members.next ≤ id → r.begun id = []
  mark : ∀ r, m.run = some r → r.mark ≤ m.added.length
  sums : ∀ r, m.run = some r →
    Totals.Sums r.start ((m.added.drop r.mark).map fun e => e.result.batch) r.totals
  same : ∀ r, m.run = some r → ∀ e ∈ m.added.drop r.mark,
    e.run.assignment = r.assignment ∧ e.run.begun = r.begun

variable {f f' : Fleet ρ} {w w' : ω} {run : Option Run} {added : List (Added ρ)} {id : MemberId}
variable {m x : Member ρ} {done more : List Request}

omit [World ω ρ] in
theorem flatMap_encode_mono {xs ys : List Request} (h : xs <+: ys) :
    xs.flatMap Request.encode <+: ys.flatMap Request.encode := by
  rcases h with ⟨zs, rfl⟩
  rw [List.flatMap_append]
  exact List.prefix_append _ _

/-- A member that was asked more keeps its standing. -/
theorem Standing.next (h : Standing run added id m done) (hset : x.Settles (done ++ more))
    (hgrow : done ++ m.state.owed <+: done ++ more ++ x.state.owed)
    (hholds : ∀ r, run = some r → x.state ≠ .fresh → held (done ++ more) = r.assignment.holding) :
    Standing run added id x (done ++ more) where
  settles := hset
  within r hr := (h.within r hr).trans (flatMap_encode_mono (List.prefix_append done more))
  holds := hholds
  later e he hid := by
    have hlt := h.later e he hid
    have hle := (flatMap_encode_mono hgrow).length_le
    rw [← h.settles.given, ← hset.given] at hle
    omega

omit [World ω ρ] in
/-- The state of a member tells what its account owes. -/
theorem Standing.account {state : MemberState} (h : Standing run added id m done)
    (hstate : m.state = state) : Account m.link done state.owed := by
  rw [← hstate]
  exact h.settles

/-- If only one member changes, only its standing is at stake. -/
theorem Inv.change (h : Inv ⟨f, w, run, added⟩) (hchange : Changes id f f')
    (hid : ∀ m x done, f.get? id = some m → f'.get? id = some x →
      Standing run added id m done → ∃ done', Standing run added id x done')
    (hstay : ∀ x, f'.get? id = some x → ∃ m, f.get? id = some m) :
    Inv ⟨f', w', run, added⟩ where
  standing i x hx := by
    by_cases heq : i = id
    · subst heq
      -- a member that is new under this number would have no standing to go on from
      rcases hstay x hx with ⟨m, hm⟩
      rcases h.standing i m hm with ⟨done, hstanding⟩
      exact hid m x done hm hx hstanding
    · refine h.standing i x ?_
      rw [← hchange.get? i heq]
      exact hx
  answered := h.answered
  once := h.once
  known e he := (h.known e he).trans_eq hchange.next.symm
  new r hr i hi := by
    refine h.new r hr i ?_
    rw [← hchange.next]
    exact hi
  mark := h.mark
  sums := h.sums
  same := h.same

/-- A member that is gone needs no standing. -/
theorem Inv.gone (h : Inv ⟨f, w, run, added⟩) (hchange : Changes id f f')
    (hnone : f'.get? id = none) : Inv ⟨f', w', run, added⟩ := by
  refine h.change hchange (fun m x done _ hx _ => ?_) fun x hx => ?_
  · rw [hnone] at hx
    cases hx
  · rw [hnone] at hx
    cases hx

/-! ## Steps with one member -/

/-- A member that has changed nothing but what it is asked next stands as before. -/
theorem Standing.congr (h : Standing run added id m done) (hset : x.Settles done)
    (hgiven : Traffic.given m.link.remote <+: Traffic.given x.link.remote)
    (hholds : ∀ r, run = some r → x.state ≠ .fresh → held done = r.assignment.holding) :
    Standing run added id x done where
  settles := hset
  within := h.within
  holds := hholds
  later e he hid := (h.later e he hid).trans_le hgiven.length_le

variable [Workers ω ρ]

theorem inv_acted (h : Inv ⟨f, w, run, added⟩) (hm : f.get? id = some m) :
    Inv ⟨f.withRemote id (World.acting id m.link.remote w).1,
      (World.acting id m.link.remote w).2, run, added⟩ := by
  refine h.change (changes_modifyMember f id _) (fun m' x done hm' hx hstands => ?_)
    fun _ _ => ⟨m, hm⟩
  cases hm.symm.trans hm'
  have hnow : some { m with link.remote := (World.acting id m.link.remote w).1 } = some x := by
    rw [← hx]
    simp [hm]
  cases hnow
  have hset : Account { m.link with remote := (World.acting id m.link.remote w).1 } done
      m.state.owed := Account.acted hstands.settles
  refine ⟨done, hstands.congr hset ?_ hstands.holds⟩
  rw [hstands.settles.given, ← hset.given]

/-- A member that was given an assignment has done what it asks for. -/
theorem settles_assigned {a : Assignment} {v : ω} (hset : m.Settles done)
    (hfresh : m.state = .fresh) (hmeets : Meets a.send m.link w (.ok ()) x.link v)
    (hidle : x.state = .idle) : x.Settles (done ++ a.requests) := by
  rw [Member.Settles, hfresh] at hset
  rw [Member.Settles, hidle]
  exact Account.assigned hset hmeets

/-- A member that was handed a work unit owes the result. -/
theorem settles_handed {v : ω} (hset : m.Settles done) (hidle : m.state = .idle)
    (hmeets : Meets (Link.call workCall) m.link w (.ok ()) x.link v)
    (hworking : x.state = .working) : x.Settles done := by
  rw [Member.Settles, hidle] at hset
  rw [Member.Settles, hworking]
  exact Account.handed hset hmeets

theorem inv_assigned {r : Run} {u : Unit} (h : Inv ⟨f, w, some r, added⟩)
    (hfirst : f.find? .fresh = some id) (hassign : Ends (assign r.assignment id) f w u f' w') :
    Inv ⟨f', w', some r, added⟩ := by
  rw [assign_eq_tell] at hassign
  refine h.change (changes_tell hassign) (fun m x done hm hx hstands => ?_) fun x hx => ?_
  · rcases member_of_tell hassign hx with ⟨m', v, hm', hmeets, hidle⟩
    cases hm.symm.trans hm'
    have hfresh := state_eq_of_get? (stateOf?_of_find? hfirst) hm
    have hset := settles_assigned hstands.settles hfresh hmeets hidle
    refine ⟨_, hstands.next hset ?_ fun r' hr' _ => ?_⟩
    · -- what the run has asked of the member grows by the assignment
      rw [hfresh, hidle, List.append_assoc]
      exact (List.prefix_append_right_inj done).2 List.nil_prefix
    · -- the last that it was given is what the run goes by
      cases hr'
      exact held_requests done r.assignment
  · rcases member_of_tell hassign hx with ⟨m, _, hm, -, -⟩
    exact ⟨m, hm⟩

theorem inv_handed {r : Run} {u : Unit} (h : Inv ⟨f, w, some r, added⟩)
    (hfirst : f.find? .idle = some id) (hhand : Ends (handWork id) f w u f' w') :
    Inv ⟨f', w', some r, added⟩ := by
  rw [handWork_eq_tell] at hhand
  refine h.change (changes_tell hhand) (fun m x done hm hx hstands => ?_) fun x hx => ?_
  · rcases member_of_tell hhand hx with ⟨m', v, hm', hmeets, hworking⟩
    cases hm.symm.trans hm'
    have hidle := state_eq_of_get? (stateOf?_of_find? hfirst) hm
    have hset := settles_handed hstands.settles hidle hmeets hworking
    refine ⟨done, hstands.congr hset ?_ fun r' hr' _ => hstands.holds r' hr' ?_⟩
    · -- what was given grows by a work unit, the replies are still owed
      rw [hstands.settles.given, hset.given, hidle]
      exact flatMap_encode_mono ((List.prefix_append_right_inj done).2 List.nil_prefix)
    · -- an idle member was assigned the run before
      rw [hidle]
      decide
  · rcases member_of_tell hhand hx with ⟨m, _, hm, -, -⟩
    exact ⟨m, hm⟩

/-- A member whose result and busy time were told is quiet. -/
theorem settles_delivered {l : Link ρ} {r : WorkResult} {used : Real64} {v v' : ω}
    (hset : m.Settles done) (hpending : m.state = .pending)
    (hread : Meets WorkResult.recv m.link w (.ok r) l v)
    (hasked : Meets askBusyTime l v (.ok used) x.link v') (hidle : x.state = .idle) :
    x.Settles (done ++ [.work, .busyTime]) := by
  rw [Member.Settles, hpending] at hset
  have hread' := (Account.heardResult hset hread).1
  have hasked' := hread'.toldBusyTime hasked
  rw [List.append_assoc] at hasked'
  rw [Member.Settles, hidle]
  exact hasked'

theorem inv_discarded {u : Unit} (h : Inv ⟨f, w, none, added⟩)
    (hfirst : f.find? .pending = some id) (hdiscard : Ends (discardResult id) f w u f' w') :
    Inv ⟨f', w', none, added⟩ := by
  refine h.change (changes_discardResult hdiscard) (fun m x done hm hx hstands => ?_) fun x hx => ?_
  · rcases member_of_discardResult hdiscard hx with ⟨m', r, l, v, used, v', hm', hread, hbusy, hidle⟩
    cases hm.symm.trans hm'
    have hpending := state_eq_of_get? (stateOf?_of_find? hfirst) hm
    have hset := settles_delivered hstands.settles hpending hread hbusy hidle
    refine ⟨_, hstands.next hset ?_ fun r' hr' _ => by cases hr'⟩
    rw [hpending, hidle, List.append_assoc]
    exact (List.prefix_append_right_inj done).2 ⟨[.busyTime], rfl⟩
  · rcases member_of_discardResult hdiscard hx with ⟨m, _, _, _, _, _, hm, -, -, -⟩
    exact ⟨m, hm⟩

omit [Workers ω ρ] in
theorem inv_dropped {u : Unit} (h : Inv ⟨f, w, run, added⟩) (hdrop : Ends (drop id) f w u f' w') :
    Inv ⟨f', w', run, added⟩ := by
  rcases ends_drop.1 hdrop with ⟨hnone, rfl, -⟩ | ⟨m, -, rfl, -⟩
  · exact h.gone ⟨rfl, fun _ _ => rfl⟩ hnone
  · exact h.gone (changes_without f id) (by simp)

omit [Workers ω ρ] in
theorem inv_lost {l : Link ρ} {v : ω} (h : Inv ⟨f, w, run, added⟩)
    (hleaves : Leaves f id l v f' w') : Inv ⟨f', w', run, added⟩ :=
  h.gone hleaves.changes hleaves.get?_eq_none

theorem inv_refused {r : Run} {y : WorkResult} {l : Link ρ} {v : ω}
    (h : Inv ⟨f, w, some r, added⟩) (hfirst : f.find? .pending = some id)
    (hm : f.get? id = some m) (hread : Meets WorkResult.recv m.link w (.ok y) l v) :
    Inv ⟨(f.withLink id l).withState id .fresh, v, some r, added⟩ := by
  have hchange : Changes id f ((f.withLink id l).withState id .fresh) :=
    (changes_modifyMember f id _).trans (changes_modifyMember _ id _)
  -- the result is read all the same, so that nothing of it is left on the link
  refine h.change hchange (fun m' x done hm' hx hstands => ?_) fun _ _ => ⟨m, hm⟩
  cases hm.symm.trans hm'
  have hnow : some { m with link := l, state := .fresh } = some x := by
    rw [← hx]
    simp [hm]
  cases hnow
  have hpending := state_eq_of_get? (stateOf?_of_find? hfirst) hm
  have haccount : Account m.link done [.work] := hstands.account hpending
  have hset : Member.Settles { m with link := l, state := .fresh } (done ++ [.work]) :=
    (haccount.heardResult hread).1
  refine ⟨done ++ [.work], hstands.next hset ?_ fun _ _ hne => absurd rfl hne⟩
  rw [hpending, List.append_assoc]
  exact List.prefix_rfl

/-! ## Waits -/

omit [World ω ρ] [Workers ω ρ] in
/-- The invariant says nothing about the outside world. -/
theorem Inv.world [World ω ρ] (h : Inv ⟨f, w, run, added⟩) (w' : ω) : Inv ⟨f, w', run, added⟩ :=
  ⟨h.standing, h.answered, h.once, h.known, h.new, h.mark, h.sums, h.same⟩

theorem inv_acting {g : Fleet ρ} {v : ω} (hact : Acting f w g v) (h : Inv ⟨f, w, run, added⟩) :
    Inv ⟨g, v, run, added⟩ := by
  induction hact with
  | none => exact h
  | more _ member ih => exact inv_acted ih member

omit [Workers ω ρ] in
/-- Somebody who joins over a quiet link has a standing. -/
theorem Inv.track {l : Link ρ} (h : Inv ⟨f, w, run, added⟩) (name : String)
    (haccount : Account l done []) : Inv ⟨f.track l name, w', run, added⟩ where
  standing i x hx := by
    dsimp only at hx
    rw [get?_track] at hx
    split at hx
    · -- neither the run nor an added result knows the new number yet
      rename_i hi
      cases hx
      refine ⟨done, haccount, fun r hr => ?_, fun _ _ hne => absurd rfl hne, fun e he hid => ?_⟩
      · rw [hi, h.new r hr _ (Nat.le_refl _)]
        exact List.nil_prefix
      · have hlt := h.known e he
        rw [hid, hi] at hlt
        exact absurd hlt (Nat.lt_irrefl _)
    · exact h.standing i x hx
  answered := h.answered
  once := h.once
  known e he := Nat.lt_succ_of_lt (h.known e he)
  new r hr i hi := h.new r hr i (Nat.le_of_succ_le hi)
  mark := h.mark
  sums := h.sums
  same := h.same

theorem account_joined {quiet : Bool} {y : ρ} {name : String} {l : Link ρ} {v v' : ω}
    (hoffer : offered quiet w = (some (.ok y), v))
    (hnamed : Meets askName (.new y) v (.ok name) l v') : Account l [.name] [] :=
  (account_new (Workers.offered hoffer)).toldName hnamed

theorem inv_joining {accepting : Bool} (hjoin : Joining f w accepting f' w')
    (h : Inv ⟨f, w, run, added⟩) : Inv ⟨f', w', run, added⟩ := by
  cases hjoin with
  | shut => exact h
  | nobody _ => exact h.world _
  | failed _ => exact h.world _
  | refused _ _ => exact h.world _
  | joined offer named => exact h.track _ (account_joined offer named)

/-- A look at a link reads nothing. It may mark a member that owes a result, and moves nobody
else. -/
theorem settles_swept (hset : m.Settles done) (hswept : Fleet.swept ω m = some x) :
    x.Settles done ∧ x.state.owed = m.state.owed ∧
      (x.state = m.state ∨ m.state.owed = [.work] ∧ m.state ≠ .fresh) := by
  rcases swept_eq_some hswept with ⟨-, rfl, -⟩
  rcases Account.looked (ω := ω) hset with ⟨haccount, hunread⟩
  have hstate : (Member.looked ω m).state =
      if (m.link.readiness ω).1 = .unread then .pending else m.state := rfl
  by_cases hready : (m.link.readiness ω).1 = .unread
  · -- only a member that owes a result can have said something, and marking it is no change
    rw [if_pos hready] at hstate
    rcases MemberState.owed_of_ne_nil (hunread hready) with ⟨howed, hfresh⟩
    have hsame : (Member.looked ω m).state.owed = m.state.owed := by
      rw [hstate, howed]
      rfl
    refine ⟨?_, hsame, .inr ⟨howed, hfresh⟩⟩
    rw [Member.Settles, hsame]
    exact haccount
  · rw [if_neg hready] at hstate
    refine ⟨?_, by rw [hstate], .inl hstate⟩
    rw [Member.Settles, hstate]
    exact haccount

theorem Standing.swept (h : Standing run added id m done) (hswept : Fleet.swept ω m = some x) :
    Standing run added id x done := by
  rcases settles_swept h.settles hswept with ⟨hset, howed, hstate⟩
  refine h.congr hset ?_ fun r hr hfresh => h.holds r hr ?_
  · rw [h.settles.given, hset.given, howed]
  · rcases hstate with hsame | ⟨-, hne⟩
    · exact hsame ▸ hfresh
    · exact hne

theorem inv_swept (hswept : Swept ω f f') (h : Inv ⟨f, w, run, added⟩) :
    Inv ⟨f', w', run, added⟩ where
  standing i x hx := by
    dsimp only at hx
    rw [hswept.get?, Option.bind_eq_some_iff] at hx
    rcases hx with ⟨m, hm, hsw⟩
    -- a sweep moves nobody but those who owe a result, see `settles_swept`
    rcases h.standing i m hm with ⟨done, hstands⟩
    exact ⟨done, hstands.swept hsw⟩
  answered := h.answered
  once := h.once
  known e he := (h.known e he).trans_eq hswept.next.symm
  new r hr i hi := h.new r hr i (hswept.next.symm.trans_le hi)
  mark := h.mark
  sums := h.sums
  same := h.same

theorem inv_waited {accepting : Bool} {ev : Event} (h : Inv ⟨f, w, run, added⟩)
    (hwait : Ends (waitForEvent accepting) f w ev f' w') : Inv ⟨f', w', run, added⟩ := by
  rcases ends_waitForEvent hwait with ⟨g, v, g', v', hact, hjoin, hswept⟩
  exact inv_swept hswept (inv_joining hjoin (inv_acting hact (h.world _)))

/-! ## Between runs -/

omit [World ω ρ] [Workers ω ρ] in
theorem account_of_quiet {y : ρ} (h : Quiet y) : ∃ done, Account (Link.new y) done [] := by
  rcases h with ⟨done, hgiven, hreplies⟩
  refine ⟨done, fun _ hq => absurd hq List.not_mem_nil, Traffic.said y, ⟨?_, ?_⟩, hreplies⟩
  · rw [List.append_nil]
    exact hgiven
  · exact (List.append_nil _).symm

omit [Workers ω ρ] in
theorem inv_inserted {y : ρ} {name : String} {i : MemberId} (h : Inv ⟨f, w, run, added⟩)
    (hquiet : Quiet y) (hinsert : Ends (insert y name) f w i f' w') :
    Inv ⟨f', w', run, added⟩ := by
  rcases ends_insert.1 hinsert with ⟨-, rfl, -⟩
  rcases account_of_quiet hquiet with ⟨done, haccount⟩
  exact h.track name haccount

omit [Workers ω ρ] in
theorem inv_dismissed {u : Unit} (h : Inv ⟨f, w, run, added⟩)
    (hshutdown : Ends shutdown f w u f' w') : Inv ⟨f', w', run, added⟩ := by
  rcases ends_shutdown hshutdown with ⟨hnext, hnobody⟩
  refine ⟨fun i x hx => ?_, h.answered, h.once, fun e he => (h.known e he).trans_eq hnext.symm,
    fun r hr i hi => h.new r hr i (hnext.symm.trans_le hi), h.mark, h.sums, h.same⟩
  dsimp only at hx
  rw [hnobody i] at hx
  cases hx

omit [World ω ρ] [Traffic ρ] [Workers ω ρ] in
/-- If nobody is working or `pending`, nobody owes anything. -/
theorem owed_eq_nil (hworking : f.find? .working = none) (hpending : f.find? .pending = none)
    (hm : f.get? id = some m) : m.state.owed = [] := by
  cases hs : m.state with
  | fresh => rfl
  | idle => rfl
  | working => exact absurd (stateOf?_eq_some_iff.2 ⟨m, hm, hs⟩) (find?_eq_none_iff.1 hworking id)
  | pending => exact absurd (stateOf?_eq_some_iff.2 ⟨m, hm, hs⟩) (find?_eq_none_iff.1 hpending id)

omit [Workers ω ρ] in
theorem inv_began {a : Assignment} {start : Totals Real64} {u : PUnit}
    (h : Inv ⟨f, w, none, added⟩) (hworking : f.find? .working = none)
    (hpending : f.find? .pending = none)
    (hreset : Ends (do resetAll; resetBusyTime) f w u f' w') :
    Inv ⟨f', w', some ⟨a, givenBy f, added.length, start, start⟩, added⟩ := by
  rcases ends_bind.1 hreset with ⟨_, g, v, hall, htime⟩
  rcases ends_resetAll hall with ⟨hnext, hget⟩
  rcases ends_modifyFleet.1 htime with ⟨rfl, -⟩
  refine ⟨fun i x hx => ?_, h.answered, h.once, fun e he => (h.known e he).trans_eq hnext.symm,
    fun r hr i hi => ?_, fun r hr => ?_, fun r hr => ?_, fun r hr e he => ?_⟩
  · have hx' : g.get? i = some x := hx
    rw [hget, Option.map_eq_some_iff] at hx'
    rcases hx' with ⟨m, hm, rfl⟩
    rcases h.standing i m hm with ⟨done, hstands⟩
    have haccount : Account m.link done [] := by
      have hset := hstands.settles
      rwa [Member.Settles, owed_eq_nil hworking hpending hm] at hset
    refine ⟨done, haccount, fun r hr => ?_, fun _ _ hne => absurd rfl hne, hstands.later⟩
    cases hr
    -- with nothing owed, all that was given when the run begins is done
    have hgiven : givenBy f i = Traffic.given m.link.remote := by
      rw [givenBy, hm]
      rfl
    dsimp only
    rw [hgiven, haccount.given, List.append_nil]
  · cases hr
    have hnone : f.get? i = none := f.members.get?_eq_none_of_next_le (hnext.symm.trans_le hi)
    dsimp only
    rw [givenBy, hnone]
    rfl
  · cases hr
    exact Nat.le_refl _
  · cases hr
    dsimp only
    rw [List.drop_length]
    exact .none
  · cases hr
    dsimp only at he
    rw [List.drop_length] at he
    exact absurd he List.not_mem_nil

omit [Workers ω ρ] in
theorem inv_ended {r : Run} (h : Inv ⟨f, w, some r, added⟩) : Inv ⟨f, w, none, added⟩ where
  standing i x hx := by
    rcases h.standing i x hx with ⟨done, hstands⟩
    refine ⟨done, hstands.settles, fun r hr => ?_, fun r hr => ?_, hstands.later⟩
    · cases hr
    · cases hr
  answered := h.answered
  once := h.once
  known := h.known
  new r hr := by cases hr
  mark r hr := by cases hr
  sums r hr := by cases hr
  same r hr := by cases hr

/-! ## A result is added -/

/-- After its result was added, a member was asked for its busy time. -/
theorem standing_counted {r : Run} {y : WorkResult} {l : Link ρ} {v v' : ω} {used : Real64}
    {t : Totals Real64} (hstands : Standing (some r) added id m done) (hpending : m.state = .pending)
    (hread : Meets WorkResult.recv m.link w (.ok y) l v)
    (hasked : Meets askBusyTime l v (.ok used) x.link v') (hidle : x.state = .idle) :
    Standing (some { r with totals := t }) (added ++ [⟨r, id, m.link, y⟩]) id x
      (done ++ [.work, .busyTime]) := by
  have hset := settles_delivered hstands.settles hpending hread hasked hidle
  have hnext : Standing (some r) added id x (done ++ [.work, .busyTime]) := by
    refine hstands.next hset ?_ fun r' hr' _ => ?_
    · rw [hpending, hidle, List.append_assoc]
      exact (List.prefix_append_right_inj done).2 ⟨[.busyTime], rfl⟩
    · -- neither call changes what a worker holds
      have hne : m.state ≠ .fresh := by
        rw [hpending]
        decide
      rw [← hstands.holds r' hr' hne, held, List.foldl_append]
      rfl
  refine ⟨hset, fun r' hr' => ?_, fun r' hr' hne => ?_, fun e he hid => ?_⟩
  · cases hr'
    exact hnext.within r rfl
  · cases hr'
    exact hnext.holds r rfl hne
  · rcases List.mem_append.1 he with he | he
    · exact hnext.later e he hid
    · rw [List.mem_singleton.1 he]
      have hgiven := hstands.settles.given
      have hgiven' := hset.given
      rw [hpending] at hgiven
      rw [hidle] at hgiven'
      dsimp only
      rw [hgiven, hgiven']
      have hpos : 0 < Request.busyTime.encode.length :=
        List.length_pos_iff.2 (Request.encode_ne_nil _)
      -- the member was given the question for its busy time since
      simp only [MemberState.owed, List.flatMap_append, List.flatMap_cons, List.flatMap_nil,
        List.length_append, List.length_nil]
      omega

theorem answers_counted {r : Run} {y : WorkResult} {l : Link ρ} {v : ω}
    (hstands : Standing (some r) added id m done) (hpending : m.state = .pending)
    (hread : Meets WorkResult.recv m.link w (.ok y) l v) :
    (⟨r, id, m.link, y⟩ : Added ρ).Answers ω done := by
  have haccount : Account m.link done [.work] := hstands.account hpending
  have hne : m.state ≠ .fresh := by
    rw [hpending]
    decide
  have hholds := hstands.holds r rfl hne
  rcases haccount.heardResult hread with ⟨hread', hanswer⟩
  rw [hholds] at hanswer
  exact ⟨haccount, hstands.within r rfl, hholds, ⟨l, w, v, hread, hread'⟩, hanswer⟩

omit [Workers ω ρ] in
/-- The result of another member changes nothing for a member. -/
theorem Standing.others {r : Run} {t : Totals Real64} {e : Added ρ}
    (h : Standing (some r) added id m done) (hother : e.member ≠ id) :
    Standing (some { r with totals := t }) (added ++ [e]) id m done where
  settles := h.settles
  within r' hr' := by
    cases hr'
    exact h.within r rfl
  holds r' hr' hfresh := by
    cases hr'
    exact h.holds r rfl hfresh
  later e' he' hid := by
    -- the new entry is the only one to be looked at
    rcases List.mem_append.1 he' with he' | he'
    · exact h.later e' he' hid
    · rw [List.mem_singleton.1 he'] at hid
      exact absurd hid hother

omit [World ω ρ] [Workers ω ρ] in
/-- More was asked of a member since any earlier result of it was added. -/
theorem Standing.not_mem (h : Standing run added id m done) :
    (id, Traffic.given m.link.remote) ∉
      added.map fun e => (e.member, Traffic.given e.link.remote) := by
  intro hmem
  rcases List.mem_map.1 hmem with ⟨e, he, heq⟩
  have hlt := h.later e he (congrArg Prod.fst heq)
  have hgiven : Traffic.given e.link.remote = Traffic.given m.link.remote := congrArg Prod.snd heq
  rw [hgiven] at hlt
  exact Nat.lt_irrefl _ hlt

theorem inv_counted {r : Run} {y : WorkResult} {l : Link ρ} {v : ω} {t : Totals Real64} {u : Unit}
    (h : Inv ⟨f, w, some r, added⟩) (hfirst : f.find? .pending = some id)
    (hm : f.get? id = some m) (hread : Meets WorkResult.recv m.link w (.ok y) l v)
    (haccepted : accept r.assignment r.totals y = .ok (some t))
    (hconclude : Ends (conclude id) (f.withLink id l) v u f' w') :
    Inv ⟨f', w', some { r with totals := t }, added ++ [⟨r, id, m.link, y⟩]⟩ := by
  have hchange : Changes id f f' :=
    (changes_modifyMember f id _).trans (changes_conclude hconclude)
  have hpending := state_eq_of_get? (stateOf?_of_find? hfirst) hm
  have hmark : r.mark ≤ added.length := h.mark r rfl
  -- the result is one of those added since the run began
  have hdrop : (added ++ [(⟨r, id, m.link, y⟩ : Added ρ)]).drop r.mark =
      added.drop r.mark ++ [⟨r, id, m.link, y⟩] := List.drop_append_of_le_length hmark
  rcases h.standing id m hm with ⟨done, hstands⟩
  refine ⟨fun i x hx => ?_, fun e he => ?_, ?_, fun e he => ?_, fun r' hr' i hi => ?_,
    fun r' hr' => ?_, fun r' hr' => ?_, fun r' hr' e he => ?_⟩
  · by_cases heq : i = id
    · subst heq
      rcases member_of_conclude hconclude hx with ⟨m', used, v', hm', hasked, hidle⟩
      cases (get?_withLink_self hm l).symm.trans hm'
      exact ⟨_, standing_counted hstands hpending hread hasked hidle⟩
    · have hx' : f.get? i = some x := by
        rw [← hchange.get? i heq]
        exact hx
      rcases h.standing i x hx' with ⟨done', hstands'⟩
      exact ⟨done', hstands'.others (Ne.symm heq)⟩
  · rcases List.mem_append.1 he with he | he
    · exact h.answered e he
    · rw [List.mem_singleton.1 he]
      exact ⟨done, answers_counted hstands hpending hread⟩
  · rw [List.map_append]
    refine h.once.append (List.nodup_singleton _) ?_
    rw [List.map_singleton, List.disjoint_singleton]
    exact hstands.not_mem
  · rcases List.mem_append.1 he with he | he
    · exact (h.known e he).trans_eq hchange.next.symm
    · rw [List.mem_singleton.1 he]
      exact (lt_next_of_get? hm).trans_eq hchange.next.symm
  · cases hr'
    exact h.new r rfl i (hchange.next.symm.trans_le hi)
  · cases hr'
    dsimp only
    rw [List.length_append]
    exact Nat.le_add_right_of_le hmark
  · cases hr'
    dsimp only
    rw [hdrop, List.map_append]
    exact (h.sums r rfl).more (accept_eq_some haccepted).2
  · cases hr'
    dsimp only at he
    rw [hdrop] at he
    rcases List.mem_append.1 he with he | he
    · exact h.same r rfl e he
    · rw [List.mem_singleton.1 he]
      exact ⟨rfl, rfl⟩

/-! ## All moments -/

theorem inv_task {a b : Moment ω ρ} (h : Inv a) (htask : Task a b) : Inv b := by
  -- one lemma for each kind of task; the totals change in `inv_counted` alone
  cases htask with
  | inserted quiet insert => exact inv_inserted h quiet insert
  | waited wait => exact inv_waited h wait
  | discarded first discard => exact inv_discarded h first discard
  | dropped _ drop => exact inv_dropped h drop
  | dismissed shutdown => exact inv_dismissed h shutdown
  | began a start working pending reset => exact inv_began h working pending reset
  | assigned first assign => exact inv_assigned h first assign
  | handed first hand => exact inv_handed h first hand
  | listened wait => exact inv_waited h wait
  | counted first member read accepted conclude =>
    exact inv_counted h first member read accepted conclude
  | refused first member read _ => exact inv_refused h first member read
  | lost _ _ _ leaves => exact inv_lost h leaves
  | reported r => exact h.world _
  | ended _ => exact inv_ended h

theorem inv_step {a b : Moment ω ρ} (h : Inv a) (hstep : Step a b) : Inv b := by
  cases hstep with
  | task htask => exact inv_task h htask
  | passed w' => exact h.world w'
  | acted member => exact inv_acted h member

omit [Workers ω ρ] in
theorem inv_start (w : ω) : Inv (⟨.empty, w, none, []⟩ : Moment ω ρ) where
  standing i x hx := by cases hx
  answered e he := absurd he List.not_mem_nil
  once := List.nodup_nil
  known e he := absurd he List.not_mem_nil
  new r hr := by cases hr
  mark r hr := by cases hr
  sums r hr := by cases hr
  same r hr := by cases hr

theorem inv_of_reachable {a : Moment ω ρ} (h : Reachable a) : Inv a := by
  rcases h with ⟨w, hsteps⟩
  -- on the steps from the empty fleet
  induction hsteps with
  | refl => exact inv_start w
  | tail _ hstep ih => exact inv_step ih hstep

theorem Inv.sound {a : Moment ω ρ} (h : Inv a) : Sound a where
  owes id x hx := by
    rcases h.standing id x hx with ⟨done, hstands⟩
    exact ⟨done, hstands.settles, Account.begins ω hstands.settles⟩
  answered := h.answered
  once := h.once
  sums := h.sums
  same := h.same

end Moment

end FleetEstimate
