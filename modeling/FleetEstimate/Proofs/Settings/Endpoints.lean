import Mathlib
import FleetEstimate.Proofs.Decimal.Numerals
import FleetEstimate.Settings.Endpoint

/-!
# The grammar of endpoints

Every text is split at its last colon, as a port has none. What stands in front may have
colons of its own. Each text falls in one of six classes, three of endpoints and three of
errors, and the classes of errors are told apart in the order in which a text is read.
-/

namespace FleetEstimate.Endpoint

open Decimal (IsNumeral IsDigit readNat readNat_eq_ok_iff readNat_eq_error_iff)

variable {s host port : String}

/-! ## The last colon -/

/-- The text is `host`, its last colon, and `port`. -/
def SplitsLast (s host port : String) : Prop := s = host ++ ":" ++ port ∧ ':' ∉ port.toList

theorem splitsLast_iff :
    SplitsLast s host port ↔
      s.toList = host.toList ++ ':' :: port.toList ∧ ':' ∉ port.toList := by
  rw [SplitsLast, ← String.toList_inj]
  simp [String.toList_append]

theorem exists_splitsLast (h : ':' ∈ s.toList) : ∃ host port, SplitsLast s host port := by
  -- the last colon is the first one from behind
  obtain ⟨behind, before, hs, hbehind⟩ :=
    List.eq_append_cons_of_mem (List.mem_reverse.mpr h)
  refine ⟨String.ofList before.reverse, String.ofList behind.reverse, splitsLast_iff.mpr ⟨?_, ?_⟩⟩
  · rw [← List.reverse_reverse s.toList, hs]
    simp
  · simpa using hbehind

theorem splitLast_of_notMem (h : ':' ∉ s.toList) : splitLast s = none := by
  have hdrop : s.toList.reverse.dropWhile (· ≠ ':') = [] := by
    rw [List.dropWhile_eq_nil_iff]
    intro c hc
    have hne : c ≠ ':' := fun hcolon => h (hcolon ▸ List.mem_reverse.mp hc)
    simpa using hne
  simp only [splitLast, hdrop]

theorem SplitsLast.splitLast (h : SplitsLast s host port) : splitLast s = some (host, port) := by
  obtain ⟨hs, hport⟩ := splitsLast_iff.mp h
  have hreverse : s.toList.reverse = port.toList.reverse ++ ':' :: host.toList.reverse := by
    simp [hs]
  have hclear : ∀ c ∈ port.toList.reverse, decide (c ≠ ':') = true := by
    intro c hc
    have hne : c ≠ ':' := fun hcolon => hport (hcolon ▸ List.mem_reverse.mp hc)
    simpa using hne
  simp only [Endpoint.splitLast, hreverse, List.dropWhile_append_of_pos hclear,
    List.takeWhile_append_of_pos hclear]
  simp

theorem SplitsLast.unique {host' port' : String} (h : SplitsLast s host port)
    (h' : SplitsLast s host' port') : host = host' ∧ port = port' := by
  simpa using h.splitLast.symm.trans h'.splitLast

theorem SplitsLast.colon (h : SplitsLast s host port) : ':' ∈ s.toList := by
  simp [(splitsLast_iff.mp h).1]

theorem SplitsLast.ne_local (h : SplitsLast s host port) : s ≠ "local" := by
  rintro rfl
  exact absurd h.colon (by decide)

/-! ## Ports -/

/-- The text denotes a port. -/
def IsPort (text : String) : Prop := ∃ n ≤ 65535, IsNumeral text n

theorem IsPort.clear (h : IsPort port) : ':' ∉ port.toList := by
  intro hmem
  obtain ⟨n, -, hn⟩ := h
  rcases hn.mem hmem with heq | hdigit
  · exact absurd heq (by decide)
  · exact absurd hdigit (by unfold IsDigit; decide)

theorem IsPort.splitsLast (h : IsPort port) (host : String) :
    SplitsLast (host ++ ":" ++ port) host port := ⟨rfl, h.clear⟩

theorem isPort_of_isNumeral {n : UInt16} (h : IsNumeral port n.toNat) : IsPort port :=
  ⟨n.toNat, Nat.le_of_lt_succ n.toNat_lt, h⟩

/-! ## Reading -/

/-- The classes of texts, each with what its texts are read as. -/
inductive Classified : String → Except EndpointError Endpoint → Prop
  | alone : Classified "local" (.ok .alone)
  | coordinator {p : String} {n : UInt16} (hp : IsNumeral p n.toNat) :
      Classified ("*:" ++ p) (.ok (.coordinator n))
  | worker {s host p : String} (hs : SplitsLast s host p) (hp : IsPort p) (hempty : host ≠ "")
      (hstar : host ≠ "*") : Classified s (.ok (.worker s))
  | noColon {s : String} (hlocal : s ≠ "local") (hs : ':' ∉ s.toList) :
      Classified s (.error (.noColon s))
  | invalidPort {s host p : String} {e : Decimal.NumberError} (hs : SplitsLast s host p)
      (hp : readNat 65535 p = .error e) : Classified s (.error (.invalidPort s e))
  | missingHost {p : String} (hp : IsPort p) :
      Classified (":" ++ p) (.error (.missingHost (":" ++ p)))

theorem SplitsLast.ofText_of_error {e : Decimal.NumberError} (h : SplitsLast s host port)
    (hport : readNat 65535 port = .error e) : ofText s = .error (.invalidPort s e) := by
  simp only [ofText, if_neg h.ne_local, h.splitLast, hport]

theorem SplitsLast.ofText_of_ok {n : Nat} (h : SplitsLast s host port)
    (hport : readNat 65535 port = .ok n) :
    ofText s =
      if host = "*" then .ok (.coordinator (UInt16.ofNat n))
      else if host = "" then .error (.missingHost s)
      else .ok (.worker s) := by
  simp only [ofText, if_neg h.ne_local, h.splitLast, hport]

theorem exists_classified (s : String) : ∃ answer, Classified s answer := by
  by_cases hlocal : s = "local"
  · subst hlocal
    exact ⟨_, .alone⟩
  -- behind the last colon stands a port, or the text is refused whatever its host
  by_cases hcolon : ':' ∈ s.toList
  · obtain ⟨host, port, hs⟩ := exists_splitsLast hcolon
    cases hp : readNat 65535 port with
    | error e => exact ⟨_, .invalidPort hs hp⟩
    | ok n =>
      obtain ⟨hn, hle⟩ := readNat_eq_ok_iff.mp hp
      -- with a port, the host decides
      by_cases hstar : host = "*"
      · have hport : (UInt16.ofNat n).toNat = n := UInt16.toNat_ofNat_of_lt (Nat.lt_succ_of_le hle)
        rw [hs.1, hstar]
        exact ⟨_, .coordinator (hport.symm ▸ hn)⟩
      by_cases hempty : host = ""
      · rw [hs.1, hempty]
        exact ⟨_, .missingHost ⟨n, hle, hn⟩⟩
      · exact ⟨_, .worker hs ⟨n, hle, hn⟩ hempty hstar⟩
  · exact ⟨_, .noColon hlocal hcolon⟩

theorem Classified.ofText_eq {answer : Except EndpointError Endpoint} (h : Classified s answer) :
    ofText s = answer := by
  -- one case for each form; the colon in front of the port is the last one
  cases h with
  | alone => rfl
  | @coordinator p n hp =>
    have hs : SplitsLast ("*:" ++ p) "*" p := (isPort_of_isNumeral hp).splitsLast "*"
    have hread := readNat_eq_ok_iff.mpr ⟨hp, Nat.le_of_lt_succ n.toNat_lt⟩
    simp [hs.ofText_of_ok hread]
  | worker hs hp hempty hstar =>
    obtain ⟨n, hle, hn⟩ := hp
    simp [hs.ofText_of_ok (readNat_eq_ok_iff.mpr ⟨hn, hle⟩), hempty, hstar]
  | noColon hlocal hs => simp only [ofText, if_neg hlocal, splitLast_of_notMem hs]
  | invalidPort hs hp => exact hs.ofText_of_error hp
  | @missingHost p hp =>
    have hs : SplitsLast (":" ++ p) "" p := hp.splitsLast ""
    obtain ⟨n, hle, hn⟩ := hp
    simp [hs.ofText_of_ok (readNat_eq_ok_iff.mpr ⟨hn, hle⟩)]

theorem ofText_eq_iff {answer : Except EndpointError Endpoint} :
    ofText s = answer ↔ Classified s answer := by
  constructor
  · rintro rfl
    obtain ⟨answer, h⟩ := exists_classified s
    rwa [h.ofText_eq]
  · exact Classified.ofText_eq

theorem ofText_eq_alone_iff : ofText s = .ok .alone ↔ s = "local" := by
  rw [ofText_eq_iff]
  constructor
  · intro h
    cases h with
    | alone => rfl
  · intro h
    subst h
    exact .alone

theorem ofText_eq_coordinator_iff {port : UInt16} :
    ofText s = .ok (.coordinator port) ↔ ∃ p, s = "*:" ++ p ∧ IsNumeral p port.toNat := by
  rw [ofText_eq_iff]
  constructor
  · intro h
    cases h with
    | coordinator hp => exact ⟨_, rfl, hp⟩
  · intro h
    obtain ⟨p, rfl, hp⟩ := h
    exact .coordinator hp

theorem ofText_eq_worker_iff {address : String} :
    ofText s = .ok (.worker address) ↔
      address = s ∧ ∃ host p, SplitsLast s host p ∧ IsPort p ∧ host ≠ "" ∧ host ≠ "*" := by
  rw [ofText_eq_iff]
  constructor
  · intro h
    cases h with
    | worker hs hp hempty hstar => exact ⟨rfl, _, _, hs, hp, hempty, hstar⟩
  · intro h
    obtain ⟨rfl, host, p, hs, hp, hempty, hstar⟩ := h
    exact .worker hs hp hempty hstar

theorem ofText_eq_noColon_iff {text : String} :
    ofText s = .error (.noColon text) ↔ text = s ∧ s ≠ "local" ∧ ':' ∉ s.toList := by
  rw [ofText_eq_iff]
  constructor
  · intro h
    cases h with
    | noColon hlocal hs => exact ⟨rfl, hlocal, hs⟩
  · intro h
    obtain ⟨rfl, hlocal, hs⟩ := h
    exact .noColon hlocal hs

theorem ofText_eq_invalidPort_iff {text : String} :
    (∃ e, ofText s = .error (.invalidPort text e)) ↔
      text = s ∧ ∃ host p, SplitsLast s host p ∧ ¬ IsPort p := by
  simp only [ofText_eq_iff]
  constructor
  · intro h
    obtain ⟨e, h⟩ := h
    -- of all forms only this one gives the error
    cases h with
    | invalidPort hs hp => exact ⟨rfl, _, _, hs, readNat_eq_error_iff.mp ⟨e, hp⟩⟩
  · intro h
    obtain ⟨rfl, host, p, hs, hp⟩ := h
    obtain ⟨e, he⟩ := readNat_eq_error_iff.mpr hp
    exact ⟨e, .invalidPort hs he⟩

theorem ofText_eq_missingHost_iff {text : String} :
    ofText s = .error (.missingHost text) ↔ text = s ∧ ∃ p, s = ":" ++ p ∧ IsPort p := by
  rw [ofText_eq_iff]
  constructor
  · intro h
    cases h with
    | missingHost hp => exact ⟨rfl, _, rfl, hp⟩
  · intro h
    obtain ⟨rfl, p, rfl, hp⟩ := h
    exact .missingHost hp

/-- Every text is read by its form alone. An endpoint is `local`, a star and a port, or a
host and a port, where a host is any text but the empty one and a star. The address of a
worker is the text itself, so it reads as the same endpoint again. Every other text is an
error: one without a colon is told as that, one with no port behind its last colon as that,
whatever its host, and what is left are ports without a host. -/
theorem ofText_grammar (s : String) :
    (ofText s = .ok .alone ↔ s = "local") ∧
    (∀ port, ofText s = .ok (.coordinator port) ↔
      ∃ p, s = "*:" ++ p ∧ IsNumeral p port.toNat) ∧
    (∀ address, ofText s = .ok (.worker address) ↔
      address = s ∧ ∃ host p, SplitsLast s host p ∧ IsPort p ∧ host ≠ "" ∧ host ≠ "*") ∧
    (∀ address, ofText s = .ok (.worker address) → ofText address = .ok (.worker address)) ∧
    (∀ text, ofText s = .error (.noColon text) ↔
      text = s ∧ s ≠ "local" ∧ ':' ∉ s.toList) ∧
    (∀ text, (∃ e, ofText s = .error (.invalidPort text e)) ↔
      text = s ∧ ∃ host p, SplitsLast s host p ∧ ¬ IsPort p) ∧
    (∀ text, ofText s = .error (.missingHost text) ↔
      text = s ∧ ∃ p, s = ":" ++ p ∧ IsPort p) := by
  refine ⟨ofText_eq_alone_iff, fun _ => ofText_eq_coordinator_iff, fun _ => ofText_eq_worker_iff,
    ?again, fun _ => ofText_eq_noColon_iff, fun _ => ofText_eq_invalidPort_iff,
    fun _ => ofText_eq_missingHost_iff⟩
  case again =>
    intro address h
    -- the address of a worker is the whole text
    have haddress : address = s := (ofText_eq_worker_iff.mp h).1
    rw [haddress] at h ⊢
    exact h

example : ofText "::1:+0080" = .ok (.worker "::1:+0080") := by decide

example : ofText ":65536" = .error (.invalidPort ":65536" .tooLarge) := by decide

end FleetEstimate.Endpoint
