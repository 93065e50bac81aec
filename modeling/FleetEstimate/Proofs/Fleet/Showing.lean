import FleetEstimate.Proofs.Fleet.Passes
import FleetEstimate.Proofs.Fleet.Settlement
import FleetEstimate.Proofs.Wire.Messages

/-!
# What is shown of a run

Whoever follows a run keeps a log of its reports. Nothing else that a coordinator does changes
the log: neither its exchanges with members nor its waits, whoever joins, acts or leaves.
-/

namespace FleetEstimate

/-- A log of the reports in an outside world, which nothing but a report changes. -/
structure Shows (ω ρ : Type) [World ω ρ] (log : ω → List Report) : Prop where
  report : ∀ r w, log (Watch.report r w) = log w ++ [r]
  write : ∀ bytes (x : ρ) w, log (Remote.write bytes x w).2.2 = log w
  await : ∀ (x : ρ) w, log (Remote.await x w).2.2 = log w
  close : ∀ (x : ρ) w, log (Remote.close x w) = log w
  waiting : ∀ accepting w, log (World.waiting ρ accepting w) = log w
  acting : ∀ id (x : ρ) w, log (World.acting id x w).2 = log w
  offer : ∀ quiet w, log (Fleet.offered (ρ := ρ) quiet w).2 = log w

variable {ω ρ α β : Type} [World ω ρ] {log : ω → List Report}

/-! ## Exchanges -/

/-- An exchange that is not seen in a log. -/
def Hidden (log : ω → List Report) (act : LinkM ω ρ α) : Prop :=
  ∀ shown, Keeps (fun _ w => log w = shown) act

section Exchanges

omit [World ω ρ] in
theorem Hidden.bind {act : LinkM ω ρ α} {next : α → LinkM ω ρ β} (hact : Hidden log act)
    (hnext : ∀ a, Hidden log (next a)) : Hidden log (act >>= next) :=
  fun shown => (hact shown).bind fun a => hnext a shown

theorem Receives.hidden (hlog : Shows ω ρ log) {act : LinkM ω ρ α} (h : Receives act) :
    Hidden log act := by
  intro shown
  refine h.keeps ?_
  intro x w arrival x' w' hw hawait
  have hsame := hlog.await x w
  rw [hawait] at hsame
  exact hsame.trans hw

namespace Link

theorem hidden_writeAll (hlog : Shows ω ρ log) (bytes : Bytes) :
    Hidden log (writeAll bytes : LinkM ω ρ Unit) := by
  intro shown
  refine keeps_writeWithin ?_ _ _
  intro bytes x w taken x' w' hw hwrite
  have hsame := hlog.write bytes x w
  rw [hwrite] at hsame
  exact hsame.trans hw

theorem hidden_sendText (hlog : Shows ω ρ log) (t : String) :
    Hidden log (sendText t : LinkM ω ρ Unit) := by
  unfold sendText
  split
  · unfold sendFrame
    dsimp only
    split
    · exact hidden_writeAll hlog _
    · exact (hidden_writeAll hlog _).bind fun _ => hidden_writeAll hlog _
  · exact fun shown => keeps_throw

theorem hidden_call (hlog : Shows ω ρ log) (name : String) :
    Hidden log (call name : LinkM ω ρ Unit) :=
  (hidden_writeAll hlog _).bind fun _ => hidden_sendText hlog name

end Link

theorem Assignment.hidden_send (hlog : Shows ω ρ log) (a : Assignment) :
    Hidden log (a.send : LinkM ω ρ Unit) := by
  refine (Link.hidden_call hlog _).bind fun _ => ?_
  refine (Link.hidden_sendText hlog _).bind fun _ => ?_
  exact (Link.hidden_call hlog _).bind fun _ => Link.hidden_writeAll hlog _

end Exchanges

/-! ## What a coordinator does -/

namespace Fleet

variable {f f' g : Fleet ρ} {w w' v : ω} {id : MemberId} {a : Assignment}

theorem hidden_askName (hlog : Shows ω ρ log) : Hidden log (askName : LinkM ω ρ String) :=
  (Link.hidden_writeAll hlog _).bind fun _ => Link.receives_recvText.hidden hlog

theorem hidden_askBusyTime (hlog : Shows ω ρ log) :
    Hidden log (askBusyTime : LinkM ω ρ Real64) :=
  (Link.hidden_writeAll hlog _).bind fun _ => Link.receives_recvReal.hidden hlog

theorem Leaves.log_eq (hlog : Shows ω ρ log) {l : Link ρ} (h : Leaves f id l v f' w') :
    log w' = log v := by
  rw [h.2, hlog.close]

theorem log_tell (hlog : Shows ω ρ log) {act : LinkM ω ρ Unit} (hact : Hidden log act)
    {target : MemberState} {sources : List MemberState} {u : Unit}
    (h : Ends (tell act target sources id) f w u f' w') : log w' = log w := by
  rcases ends_tell.1 h with ⟨-, -, rfl⟩ | ⟨m, l, v, -, ⟨hmeets, -, -, rfl⟩ | ⟨e, hmeets, hleaves⟩⟩
  · rfl
  · exact hact _ rfl hmeets
  · rw [hleaves.log_eq hlog, hact _ rfl hmeets]

theorem log_conclude (hlog : Shows ω ρ log) {u : Unit}
    (h : Ends (conclude id) f w u f' w') : log w' = log w := by
  have hask := hidden_askBusyTime hlog
  rcases ends_conclude.1 h with ⟨-, -, rfl⟩ |
    ⟨m, l, v, -, ⟨used, hmeets, -, -, rfl⟩ | ⟨e, hmeets, hleaves⟩⟩
  · rfl
  · exact hask _ rfl hmeets
  · rw [hleaves.log_eq hlog, hask _ rfl hmeets]

theorem log_discardResult (hlog : Shows ω ρ log) {u : Unit}
    (h : Ends (discardResult id) f w u f' w') : log w' = log w := by
  have hrecv := WorkResult.receives_recv.hidden hlog
  rcases ends_discardResult.1 h with ⟨-, -, rfl⟩ |
    ⟨m, l, v, -, ⟨r, hmeets, hconclude⟩ | ⟨e, hmeets, hleaves⟩⟩
  · rfl
  · rw [log_conclude hlog hconclude, hrecv _ rfl hmeets]
  · rw [hleaves.log_eq hlog, hrecv _ rfl hmeets]

theorem log_readResult (hlog : Shows ω ρ log) {sofar y : Bool × Totals Real64}
    (h : Ends (readResult a id sofar) f w y f' w') : log w' = log w := by
  have hrecv := WorkResult.receives_recv.hidden hlog
  rcases ends_readResult.1 h with ⟨-, -, -, rfl⟩ |
    ⟨m, l, v, -, ⟨r, hmeets, hreply⟩ | ⟨e, hmeets, -, hleaves⟩⟩
  · rfl
  · rcases hreply with ⟨-, -, -, rfl⟩ | ⟨t, -, -, hconclude⟩
    · exact hrecv _ rfl hmeets
    · rw [log_conclude hlog hconclude, hrecv _ rfl hmeets]
  · rw [hleaves.log_eq hlog, hrecv _ rfl hmeets]

omit [World ω ρ] in
/-- If no handling is seen, nothing is seen of any number of them. -/
theorem Handling.log_eq {γ : Type} {s : MemberState} {handle : MemberId → γ → FleetM ω ρ γ}
    (hhandle : ∀ {id c f w c' f' w'}, Ends (handle id c) f w c' f' w' → log w' = log w)
    {c c' : γ} (h : Handling s handle c f w c' f' w') : log w' = log w := by
  induction h with
  | none => rfl
  | more _ _ step ih => rw [hhandle step, ih]

theorem Acting.log_eq (hlog : Shows ω ρ log) (h : Acting f w f' w') : log w' = log w := by
  induction h with
  | none => rfl
  | more _ _ ih => rw [hlog.acting, ih]

theorem Joining.log_eq (hlog : Shows ω ρ log) {accepting : Bool}
    (h : Joining f w accepting f' w') : log w' = log w := by
  have hask := hidden_askName hlog
  -- neither an offer nor the question for the name is a report
  have hoffer {quiet : Bool} {connection : Option (Except LinkError ρ)} {v : ω}
      (h : offered quiet w = (connection, v)) : log v = log w := by
    rw [← hlog.offer quiet w, h]
  cases h with
  | shut => rfl
  | nobody offer => exact hoffer offer
  | failed offer => exact hoffer offer
  | refused offer silent => rw [hlog.close, hask _ rfl silent, hoffer offer]
  | joined offer named => rw [hask _ rfl named, hoffer offer]

theorem log_forM_drop (hlog : Shows ω ρ log) {γ : Type} {k : γ → MemberId} {xs : List γ} {u : Unit}
    (h : Ends (xs.forM fun x => drop (ω := ω) (k x)) f w u f' w') : log w' = log w := by
  induction xs generalizing f w with
  | nil => rw [(ends_pure.1 h).2.2]
  | cons x xs ih =>
    change Ends (drop (k x) >>= fun _ => xs.forM fun x => drop (k x)) f w u f' w' at h
    rcases ends_bind.1 h with ⟨_, g, v, hdrop, hrest⟩
    rw [ih hrest]
    rcases ends_drop.1 hdrop with ⟨-, -, rfl⟩ | ⟨m, -, -, rfl⟩
    · rfl
    · exact hlog.close _ _

theorem log_waitForEvent (hlog : Shows ω ρ log) {accepting : Bool} {ev : Event}
    (h : Ends (waitForEvent accepting) f w ev f' w') : log w' = log w := by
  rcases ends_waitForEvent_parts h with ⟨g, v, g', v', hact, hjoin, hsweep⟩
  simp only [sweep, ends_getFleet_bind, ends_modifyFleet_bind] at hsweep
  rw [log_forM_drop hlog hsweep, hjoin.log_eq hlog, hact.log_eq hlog, hlog.waiting]

theorem Settling.log_eq (hlog : Shows ω ρ log) (h : Settling f w f' w') : log w' = log w := by
  induction h with
  | start => rfl
  | waited _ _ wait ih => rw [log_waitForEvent hlog wait, ih]
  | discarded _ _ discard ih => rw [log_discardResult hlog discard, ih]
  | gaveUp _ giveUp ih =>
    simp only [dropWorking, ends_getFleet_bind] at giveUp
    rw [log_forM_drop hlog (k := id) giveUp, ih]

/-- Nothing is seen of what a coordinator does before a run. -/
theorem log_settled (hlog : Shows ω ρ log) {u : PUnit}
    (h : Ends (do settle; resetAll; resetBusyTime) f w u f' w') : log w' = log w := by
  rcases ends_bind.1 h with ⟨_, f₁, w₁, hsettle, hreset⟩
  rcases ends_bind.1 hreset with ⟨_, f₂, w₂, hall, htime⟩
  rw [← (ends_modifyFleet.1 htime).2, ← (ends_modifyFleet.1 hall).2]
  exact (ends_settleWithin (ends_settle.1 hsettle)).1.log_eq hlog

theorem log_getReady (hlog : Shows ω ρ log) {ev : Event} (h : Ends (getReady a) f w ev f' w') :
    log w' = log w := by
  simp only [getReady, ends_bind] at h
  rcases h with ⟨_, f₁, w₁, hassign, _, f₂, w₂, hwork, hwait⟩
  -- the two rounds only write to links, which is not seen in the log
  have hassigned : log w₁ = log w := by
    refine (ends_handleAll hassign).log_eq ?_
    intro id _ f w _ f' w' h
    rw [assign_eq_tell] at h
    exact log_tell hlog (a.hidden_send hlog) h
  have hhanded : log w₂ = log w₁ := by
    refine (ends_handleAll hwork).log_eq ?_
    intro id _ f w _ f' w' h
    rw [handWork_eq_tell] at h
    exact log_tell hlog (Link.hidden_call hlog _) h
  rw [log_waitForEvent hlog hwait, hhanded, hassigned]

end Fleet

end FleetEstimate
