import FleetEstimate.Proofs.Fleet.Tasks
import FleetEstimate.Proofs.Fleet.Waiting
import FleetEstimate.Proofs.Wire.Messages
import FleetEstimate.Proofs.Wire.Readiness
import FleetEstimate.Proofs.Worker.Protocol

/-!
# What a member was asked and what is still to be read

The traffic of a far end is what it was given and what it has said. The account of a link
divides the requests that went over it: those whose answers are read, and those that are
still owed an answer. Every exchange of a coordinator with a worker keeps the account.
-/

namespace FleetEstimate

/-- Far ends with their traffic. -/
class Traffic (ρ : Type) where
  /-- All bytes that the far end was given. -/
  given : ρ → Bytes
  /-- All bytes that have come from the far end. -/
  said : ρ → Bytes

/-- The log of the traffic. -/
def Traffic.Log {ρ : Type} [Traffic ρ] (x : ρ) (g s : Bytes) : Prop := given x = g ∧ said x = s

/-- The far ends of a world are workers: their traffic is what goes over their links, it
begins with nothing, and they follow the protocol. -/
class Workers (ω ρ : Type) [World ω ρ] [Traffic ρ] : Prop where
  keeps : KeepsLog ω (Traffic.Log (ρ := ρ))
  acting : ∀ {id : MemberId} {x : ρ} {w : ω} {g s : Bytes}, Traffic.Log x g s →
    Traffic.Log (World.acting id x w).1 g s
  offered : ∀ {quiet : Bool} {x : ρ} {w w' : ω},
    World.offer quiet w = (some (.ok x), w') → Traffic.Log x [] []
  follows : ∀ x : ρ, FollowsProtocol (Traffic.given x) (Traffic.said x)

section Account

variable {ρ : Type} [Traffic ρ] {l l' : Link ρ} {done owed : List Request} {q : Request}

/-- Of the requests that went over a link, the answers to `done` are read, and `owed` are
still owed an answer. -/
structure Account (l : Link ρ) (done owed : List Request) : Prop where
  travels : ∀ q ∈ owed, q.Travels
  read : ∃ h, Link.Logs Traffic.Log l ((done ++ owed).flatMap Request.encode) h ∧
    Replies .nothing done h

/-- After the answers to `done`, what is unread begins the answers to `owed`. -/
def Link.Begins {ρ : Type} (l : Link ρ) (done owed : List Request) : Prop :=
  ∃ answered out, answered <+: owed ∧ Replies (held done) answered out ∧ l.unread <+: out

theorem Account.given (h : Account l done owed) :
    Traffic.given l.remote = (done ++ owed).flatMap Request.encode := by
  rcases h.read with ⟨_, hlog, -⟩
  exact hlog.1

/-- A connection that nothing has gone over. -/
theorem account_new {x : ρ} (h : Traffic.Log x [] []) : Account (Link.new x) [] [] where
  travels _ hq := absurd hq List.not_mem_nil
  read := ⟨[], h, .nil⟩

/-- A request without an answer is done once it is made. -/
theorem Account.unanswered (h : Account l done [q]) (answer : Answer (held done) q []) :
    Account l (done ++ [q]) [] := by
  rcases h.read with ⟨heard, hlog, hreplies⟩
  refine ⟨fun _ hq => absurd hq List.not_mem_nil, heard, ?_, ?_⟩
  · rw [List.append_nil]
    exact hlog
  · have hmore := hreplies.snoc answer
    rwa [List.append_nil] at hmore

/-- Whoever makes a request is owed an answer. -/
theorem Account.ask {ω : Type} {w w' : ω} {act : LinkM ω ρ Unit} (h : Account l done [])
    (hq : q.Travels) (htells : Tells Traffic.Log act q.encode)
    (hm : Meets act l w (.ok ()) l' w') : Account l' done [q] := by
  rcases h.read with ⟨heard, hlog, hreplies⟩
  rcases htells hlog hm with ⟨p, -, hlog', hp⟩
  refine ⟨fun r hr => ?_, heard, ?_, hreplies⟩
  · rw [List.mem_singleton.1 hr]
    exact hq
  · rw [hp () rfl] at hlog'
    simpa using hlog'

variable {ω : Type} [World ω ρ] [Workers ω ρ] {w w' : ω}

/-- What is unread begins the answers to requests that are owed. -/
theorem Account.begins (ω : Type) [World ω ρ] [Workers ω ρ] (h : Account l done owed) :
    l.Begins done owed := by
  rcases h.read with ⟨heard, hlog, hreplies⟩
  have hfollows := Workers.follows (ω := ω) l.remote
  rw [hlog.1, hlog.2] at hfollows
  exact hfollows.unread hreplies h.travels

/-- With nothing owed, nothing is unread. -/
theorem Account.unread_eq_nil (ω : Type) [World ω ρ] [Workers ω ρ] (h : Account l done []) :
    l.unread = [] := by
  rcases h.read with ⟨heard, hlog, hreplies⟩
  have hfollows := Workers.follows (ω := ω) l.remote
  rw [hlog.1, hlog.2, List.append_nil] at hfollows
  exact hfollows.unread_eq_nil hreplies

/-- Whoever reads something in the form of an answer has read the answer that is owed. -/
theorem Account.hear (ω : Type) [World ω ρ] [Workers ω ρ] {c : Bytes} (h : Account l done [q])
    (hheard : ∀ g heard, Link.Logs Traffic.Log l g heard →
      Link.Logs Traffic.Log l' g (heard ++ c))
    (hform : q.Form c) (hreply : q.HasReply) :
    Account l' (done ++ [q]) [] ∧ Answer (held done) q c := by
  rcases h.read with ⟨heard, hlog, hreplies⟩
  have hlog' := hheard _ _ hlog
  have hq : q.Travels := h.travels q List.mem_cons_self
  have hfollows := Workers.follows (ω := ω) l'.remote
  rw [hlog'.1, hlog'.2, List.append_assoc] at hfollows
  -- only the answer that is owed can have been said behind what was read
  rcases hfollows.answer hreplies hq hform (hform.ne_nil hreply) with ⟨hanswer, -⟩
  refine ⟨⟨fun _ hq => absurd hq List.not_mem_nil, heard ++ c, ?_, hreplies.snoc hanswer⟩,
    hanswer⟩
  rw [List.append_nil]
  exact hlog'

/-! ## The exchanges of a coordinator -/

/-- The holding of a worker that was given an assignment. -/
def Assignment.holding (a : Assignment) : Holding := ⟨some a.system, some a.parameter⟩

/-- What a worker is asked with an assignment. -/
def Assignment.requests (a : Assignment) : List Request := [.system a.system, .parameter a.parameter]

theorem held_requests (done : List Request) (a : Assignment) :
    held (done ++ a.requests) = a.holding := by
  rw [held, List.foldl_append]
  rfl

theorem Account.assigned {a : Assignment} (h : Account l done [])
    (hm : Meets a.send l w (.ok ()) l' w') : Account l' (done ++ a.requests) [] := by
  have hkeep := Workers.keeps (ω := ω) (ρ := ρ)
  rcases meets_bind_ok.1 hm with ⟨⟨⟩, l₁, w₁, hcall, hm⟩
  rcases meets_bind_ok.1 hm with ⟨⟨⟩, l₂, w₂, htext, hm⟩
  have hsize := Link.size_le_of_sendText htext
  -- the system first, in two writes
  have hsystem : Account l₂ done [.system a.system] := by
    have htells := (Link.tells_call hkeep receiveSystemCall).bind
      fun _ => Link.tells_sendText hkeep a.system
    rw [List.append_assoc] at htells
    exact h.ask hsize htells (meets_bind_ok.2 ⟨(), l₁, w₁, hcall, htext⟩)
  have hfirst := hsystem.unanswered (.system a.system hsize)
  -- then the parameter, which may only follow a system
  have hparameter : Account l' (done ++ [.system a.system]) [.parameter a.parameter] := by
    have htells := (Link.tells_call hkeep receiveParameterCall).bind
      fun _ => Link.tells_sendReal hkeep a.parameter
    rw [List.append_assoc] at htells
    exact hfirst.ask trivial htells hm
  have hready : (held (done ++ [.system a.system])).system ≠ none := by
    rw [held_append]
    exact Option.some_ne_none _
  have hboth := hparameter.unanswered (.parameter a.parameter hready)
  rw [List.append_assoc] at hboth
  exact hboth

theorem Account.handed (h : Account l done [])
    (hm : Meets (Link.call workCall) l w (.ok ()) l' w') : Account l' done [.work] :=
  h.ask trivial (Link.tells_call Workers.keeps workCall) hm

/-- The result that is read is the answer to the work call that is owed. -/
theorem Account.heardResult {r : WorkResult} (h : Account l done [.work])
    (hm : Meets WorkResult.recv l w (.ok r) l' w') :
    Account l' (done ++ [.work]) [] ∧ Answer (held done) .work r.encode := by
  rcases h.read with ⟨heard, hlog, -⟩
  have htravels := (WorkResult.logs_recv Workers.keeps hlog hm).1
  refine h.hear ω (fun g heard hlog => ?_) ⟨r, htravels, rfl⟩ trivial
  exact (WorkResult.logs_recv Workers.keeps hlog hm).2

theorem Account.toldBusyTime {used : Real64} (h : Account l done [])
    (hm : Meets Fleet.askBusyTime l w (.ok used) l' w') :
    Account l' (done ++ [.busyTime]) [] := by
  rcases meets_bind_ok.1 hm with ⟨_, l₁, w₁, hask, htell⟩
  have htag := Link.tells_sendTag (ω := ω) (ρ := ρ) Workers.keeps .getCpuTime
  have hasked : Account l₁ done [.busyTime] := by
    have hencode : Request.busyTime.encode = Tag.getCpuTime.toBytes := List.append_nil _
    rw [← hencode] at htag
    exact h.ask trivial htag hask
  refine (hasked.hear ω (fun g heard hlog => ?_) ⟨used, rfl⟩ trivial).1
  exact Link.logs_recvReal Workers.keeps hlog htell

theorem Account.toldName {name : String} (h : Account l done [])
    (hm : Meets Fleet.askName l w (.ok name) l' w') : Account l' (done ++ [.name]) [] := by
  rcases meets_bind_ok.1 hm with ⟨_, l₁, w₁, hask, htell⟩
  have htag := Link.tells_sendTag (ω := ω) (ρ := ρ) Workers.keeps .getName
  -- asked first, and then heard
  have hasked : Account l₁ done [.name] := by
    have hencode : Request.name.encode = Tag.getName.toBytes := List.append_nil _
    rw [← hencode] at htag
    exact h.ask trivial htag hask
  rcases hasked.read with ⟨heard, hlog, -⟩
  have hsize := (Link.logs_recvText Workers.keeps hlog htell).1
  refine (hasked.hear ω (fun g heard hlog => ?_) ⟨name, hsize, rfl⟩ trivial).1
  exact (Link.logs_recvText Workers.keeps hlog htell).2

/-! ## Far ends act and links are looked at -/

theorem Account.acted {id : MemberId} (h : Account l done owed) :
    Account { l with remote := (World.acting id l.remote w).1 } done owed := by
  rcases h.read with ⟨heard, hlog, hreplies⟩
  exact ⟨h.travels, heard, Workers.acting hlog, hreplies⟩

/-- A look at a link reads nothing, and it finds nothing unread if nothing is owed. -/
theorem Account.looked (h : Account l done owed) :
    Account (l.readiness ω).2 done owed ∧ ((l.readiness ω).1 = .unread → owed ≠ []) := by
  have haccount : Account (l.readiness ω).2 done owed := by
    rcases h.read with ⟨heard, hlog, hreplies⟩
    exact ⟨h.travels, heard, hlog.readiness Workers.keeps, hreplies⟩
  refine ⟨haccount, fun hready hnone => ?_⟩
  have hunread := Link.unread_readiness.mpr (Link.readiness_eq_unread_iff.mp hready)
  rw [hnone] at haccount
  exact hunread (haccount.unread_eq_nil ω)

end Account

/-! ## Members -/

/-- What a member in a state is still owed an answer to. -/
def MemberState.owed : MemberState → List Request
  | .working => [.work]
  | .pending => [.work]
  | _ => []

theorem MemberState.owed_of_ne_nil {s : MemberState} (h : s.owed ≠ []) :
    s.owed = [.work] ∧ s ≠ .fresh := by
  cases s with
  | fresh => exact absurd rfl h
  | idle => exact absurd rfl h
  | working => exact ⟨rfl, by decide⟩
  | pending => exact ⟨rfl, by decide⟩

/-- The account of a member's link, with what its state says is owed. -/
def Member.Settles {ρ : Type} [Traffic ρ] (m : Member ρ) (done : List Request) : Prop :=
  Account m.link done m.state.owed

end FleetEstimate
