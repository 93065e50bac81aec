import Mathlib
import FleetEstimate.Experiment.UncodedChannel
import FleetEstimate.Proofs.Estimation.Calls
import FleetEstimate.Proofs.Settings.Checks

/-!
# Reading an environment

Each step of reading an environment makes the next of its checks, and every default passes its
own. So reading fails with the fault that is found first, and where none is found the settings
are what the variables say. They need no further check to be run with.
-/

namespace FleetEstimate.Settings

open Decimal (NumberError)

variable {lookup : String → Option String} {c : Check} {e : SettingsError}

/-! ## Variables -/

/-- The value is what the text of a variable means, or the default where it is not set. -/
def Given {α : Type} (value : Option String) (Means : String → α → Prop) (default x : α) : Prop :=
  match value with
  | none => x = default
  | some text => Means text x

section

variable {α ε : Type} {default : α}

/-- A variable that is set is read without the blanks around it, and a fault is told together
with its whole text. -/
theorem answers_readOr {read : String → Except ε α} {fault : String → ε → SettingsError}
    {readText : String → Except SettingsError α}
    (hread : ∀ text, readText text = (read (Text.trimmed text)).mapError (fault text))
    (hfinds : ∀ text e, c.Finds text e ↔ Malformed read (fault text) text e) :
    Answers lookup [c] (readOr (lookup c.key) default readText)
      (Given (lookup c.key) (Denotes read) default) := by
  -- two things to show: which fault is told, and what a variable without one has set
  refine .of_faulty (fun e => ?_) (fun x hx => ?_)
  · cases h : lookup c.key with
    | none => simp [readOr, Faulty, h]
    | some text =>
      simp [readOr, Faulty, h, hread, hfinds, Malformed, mapError_trimmed_eq_error_iff]
  · cases h : lookup c.key with
    | none =>
      rw [h] at hx
      cases hx
      rfl
    | some text =>
      rw [h, readOr, hread] at hx
      exact mapError_trimmed_eq_ok_iff.mp hx

theorem readNumber_eq (key : String) (read : String → Except NumberError α) (text : String) :
    readNumber key read text = (read (Text.trimmed text)).mapError (.number key text) := by
  rw [readNumber]
  cases read (Text.trimmed text) <;> rfl

def readEndpoint (text : String) : Except SettingsError Endpoint :=
  match Endpoint.ofText (Text.trimmed text) with
  | .ok e => .ok e
  | .error e => .error (.endpoint text e)

theorem readEndpoint_eq (text : String) :
    readEndpoint text = (Endpoint.ofText (Text.trimmed text)).mapError (.endpoint text) := by
  rw [readEndpoint]
  cases Endpoint.ofText (Text.trimmed text) <;> rfl

end

/-! ## Ranges -/

section

variable {range : Real64 → Prop} {refusal : Real64 → EstimationError} {default x : Real64}

theorem faulty_range_iff (hfinds : ∀ text e, c.Finds text e ↔ OutOfRange range refusal text e)
    (hdefault : range default) (hx : Given (lookup c.key) (Denotes readReal) default x) :
    Faulty lookup c e ↔ ¬ range x ∧ e = .target (refusal x) := by
  simp only [Faulty, hfinds, OutOfRange]
  cases h : lookup c.key with
  | none =>
    -- not set, it is the default, which is within the range
    have hx : x = default := by simpa [Given, h] using hx
    simp [hx, hdefault]
  | some text =>
    have hx : Denotes readReal text x := by simpa [Given, h] using hx
    constructor
    · rintro ⟨_, ⟨⟩, y, hy, hout, rfl⟩
      -- a text denotes one number, so it is the one that was read
      cases hx.unique hy
      exact ⟨hout, rfl⟩
    · rintro ⟨hout, rfl⟩
      exact ⟨text, rfl, x, hx, hout, rfl⟩

theorem answers_range {answer : Except EstimationError Target} {t : Target}
    (hfinds : ∀ text e, c.Finds text e ↔ OutOfRange range refusal text e)
    (hdefault : range default) (hx : Given (lookup c.key) (Denotes readReal) default x)
    (hin : range x → answer = .ok t) (hout : ¬ range x → answer = .error (refusal x)) :
    Answers lookup [c] (answer.mapError .target) (fun t' => t' = t ∧ range x) := by
  -- in the range or out of it, for the fault and for the answer
  refine .of_faulty (fun e => ?_) (fun t' ht' => ?_) <;> by_cases hrange : range x
  · rw [faulty_range_iff hfinds hdefault hx, hin hrange]
    simp [hrange, Except.mapError]
  · rw [faulty_range_iff hfinds hdefault hx, hout hrange]
    simp [hrange, Except.mapError, eq_comm]
  · rw [hin hrange] at ht'
    cases ht'
    exact ⟨rfl, hrange⟩
  · rw [hout hrange] at ht'
    cases ht'

end

theorem withConfidence_of_level {t : Target} {confidence : Real64}
    (h : Normal.IsLevel confidence) : t.withConfidence confidence = .ok { t with confidence } := by
  obtain ⟨z, hz⟩ := Estimator.multiplierOf_of_level h
  rw [Target.withConfidence, hz]
  rfl

theorem withConfidence_of_not_level {t : Target} {confidence : Real64}
    (h : ¬ Normal.IsLevel confidence) :
    t.withConfidence confidence = .error (.invalidConfidence confidence) := by
  rw [Target.withConfidence, Estimator.multiplierOf_of_not_level h]
  rfl

/-- The tolerance is checked before the confidence. -/
theorem mapError_new (accuracy confidence : Real64) :
    (Target.new accuracy confidence).mapError SettingsError.target =
      (Target.standard.withAccuracy accuracy).mapError .target >>= fun t =>
        (t.withConfidence confidence).mapError .target := by
  rw [Target.new]
  cases Target.standard.withAccuracy accuracy <;> rfl

theorem answers_target {accuracy confidence : Real64}
    (haccuracy : Given (lookup "ACCURACY") (Denotes readReal) Target.standard.accuracy accuracy)
    (hconfidence :
      Given (lookup "CONFIDENCE") (Denotes readReal) Target.standard.confidence confidence) :
    Answers lookup [.accuracyRange, .confidenceRange]
      ((Target.new accuracy confidence).mapError .target)
      (fun t => t = ⟨accuracy, confidence, leastSamples⟩ ∧ IsAccuracy accuracy ∧
        Normal.IsLevel confidence) := by
  -- the accuracy is checked first, and the confidence only if it is in range
  have hfirst : Answers lookup [.accuracyRange]
      ((Target.standard.withAccuracy accuracy).mapError .target)
      (fun t => t = { Target.standard with accuracy } ∧ IsAccuracy accuracy) :=
    answers_range (c := .accuracyRange) (fun _ _ => Iff.rfl) (by decide) haccuracy
      (fun h => if_pos h) (fun h => if_neg h)
  rw [mapError_new]
  apply hfirst.bind
  rintro t ⟨rfl, hrange⟩
  refine (answers_range (c := .confidenceRange) (fun _ _ => Iff.rfl) (by decide) hconfidence
    withConfidence_of_level withConfidence_of_not_level).mono ?_
  rintro t ⟨rfl, hlevel⟩
  exact ⟨rfl, hrange, hlevel⟩

/-! ## Lists of parameters -/

def defaultParameters : List Real64 := [0.0, 2.0, 4.0, 6.0].map Real64.ofFloat

theorem numbers_default : Numbers "0,2,4,6" defaultParameters := by
  refine ⟨["0", "2", "4", "6"], segments_iff.mpr (by decide +kernel), ?_⟩
  simp only [defaultParameters, List.map_cons, List.map_nil, List.forall₂_cons, denotes_iff]
  refine ⟨?_, ?_, ?_, ?_, .nil⟩ <;> decide +kernel

theorem answers_parts :
    Answers lookup [.parameters]
      ((commaParts ((lookup "PARAMETERS").getD "0,2,4,6")).mapM readPart)
      (Given (lookup "PARAMETERS") Numbers defaultParameters) := by
  -- the default list reads well; any other is read part by part
  refine .of_faulty (fun e => ?_) (fun xs hxs => ?_)
  · simp only [Faulty, Check.key, Check.Finds]
    cases lookup "PARAMETERS" with
    | none => simp [mapM_readPart_eq_ok_iff.mpr numbers_default]
    | some list => simp [mapM_readPart_eq_error_iff]
  · cases h : lookup "PARAMETERS" with
    | none =>
      rw [h, Option.getD_none, mapM_readPart_eq_ok_iff.mpr numbers_default] at hxs
      cases hxs
      rfl
    | some list =>
      rw [h, Option.getD_some] at hxs
      exact mapM_readPart_eq_ok_iff.mp hxs

theorem faulty_parametersRange_iff {xs : List Real64}
    (hxs : Given (lookup "PARAMETERS") Numbers defaultParameters xs) :
    Faulty lookup .parametersRange e ↔
      xs.all Real64.isFinite = false ∧
        e = .notFinite ((lookup "PARAMETERS").getD "0,2,4,6") := by
  simp only [Faulty, Check.key, Check.Finds]
  cases h : lookup "PARAMETERS" with
  | none =>
    have hxs : xs = defaultParameters := by simpa [Given, h] using hxs
    have hfinite : defaultParameters.all Real64.isFinite = true := by decide
    simp [hxs, hfinite]
  | some list =>
    have hxs : Numbers list xs := by simpa [Given, h] using hxs
    constructor
    · rintro ⟨_, ⟨⟩, ys, hys, ⟨y, hy, hinfinite⟩, rfl⟩
      -- a list denotes its numbers in one way
      cases hxs.unique hys
      exact ⟨List.all_eq_false.mpr ⟨y, hy, by simp [hinfinite]⟩, rfl⟩
    · rintro ⟨hinfinite, rfl⟩
      obtain ⟨x, hx, hx'⟩ := List.all_eq_false.mp hinfinite
      exact ⟨list, rfl, xs, hxs, ⟨x, hx, by simpa using hx'⟩, rfl⟩

theorem answers_parameters :
    Answers lookup [.parameters, .parametersRange]
      (readParameters ((lookup "PARAMETERS").getD "0,2,4,6"))
      (fun xs => Given (lookup "PARAMETERS") Numbers defaultParameters xs ∧
        ∀ x ∈ xs, x.isFinite = true) := by
  rw [readParameters_eq]
  -- the parts are numbers first, and then all of them must be finite
  apply answers_parts.bind
  intro xs hxs
  refine .of_faulty (fun e => ?_) (fun ys hys => ?_)
  · rw [faulty_parametersRange_iff hxs]
    cases xs.all Real64.isFinite <;> simp [eq_comm]
  · cases hfinite : xs.all Real64.isFinite <;> rw [hfinite] at hys <;> cases hys
    exact ⟨hxs, by simpa using hfinite⟩

/-! ## Settings -/

/-- Each setting is what its variable says, or its default. -/
structure AsGiven (lookup : String → Option String) (s : Settings) : Prop where
  endpoint : Given (lookup "ENDPOINT") (Denotes Endpoint.ofText) .alone s.endpoint
  accuracy : Given (lookup "ACCURACY") (Denotes readReal) (.ofFloat 0.10) s.target.accuracy
  confidence : Given (lookup "CONFIDENCE") (Denotes readReal) (.ofFloat 0.95) s.target.confidence
  minSamples : s.target.minSamples = 128
  parameters : Given (lookup "PARAMETERS") Numbers ([0.0, 2.0, 4.0, 6.0].map .ofFloat) s.parameters
  blockSize : Given (lookup "BLOCK_SIZE") (Denotes readBlockSize) ⟨1000, by decide⟩
    ⟨s.blockSize, s.blockSize_ne_zero⟩
  workUnit : Given (lookup "WORK_UNIT_MS") (Denotes readMillis) 500 s.workUnit
  workerName : s.workerName = lookup "SLAVE_NAME"

/-- An estimator can be made for the settings, and there is something to estimate. -/
structure Runnable (s : Settings) : Prop where
  accuracy : 0 < s.target.accuracy ∧ s.target.accuracy < 1
  confidence : Real64.ofFloat 0.5 < s.target.confidence ∧ s.target.confidence < 1
  parameters_ne_nil : s.parameters ≠ []
  isFinite_of_mem : ∀ x ∈ s.parameters, x.isFinite = true
  one_le_blockSize : 1 ≤ s.blockSize
  starts : ∃ estimator,
    Estimator.new (UncodedChannel.new s.blockSize s.blockSize_ne_zero) s.target = .ok estimator

theorem ne_nil_of_given {value : Option String} {xs : List Real64}
    (h : Given value Numbers defaultParameters xs) : xs ≠ [] := by
  cases value with
  | none =>
    intro hnil
    cases h.symm.trans hnil
  | some list => exact Numbers.ne_nil h

theorem one_le_of_ne_zero {n : UInt64} (h : n ≠ 0) : 1 ≤ n := by
  rw [UInt64.le_iff_toNat_le]
  exact Nat.one_le_iff_ne_zero.mpr fun hzero => h (UInt64.toNat_inj.mp hzero)

theorem exists_new (channel : UncodedChannel) (target : Target)
    (h : Normal.IsLevel target.confidence) :
    ∃ estimator, Estimator.new channel target = .ok estimator := by
  obtain ⟨z, hz⟩ := Estimator.multiplierOf_of_level h
  exact ⟨_, Estimator.new_of_multiplier (Nat.succ_ne_zero 1) hz⟩

theorem read_eq (lookup : String → Option String) :
    read lookup =
      (readOr (lookup "ENDPOINT") .alone readEndpoint >>= fun endpoint =>
      readOr (lookup "ACCURACY") Target.standard.accuracy (readNumber "ACCURACY" readReal) >>=
        fun accuracy =>
      readOr (lookup "CONFIDENCE") Target.standard.confidence (readNumber "CONFIDENCE" readReal) >>=
        fun confidence =>
      (Target.new accuracy confidence).mapError .target >>= fun target =>
      readParameters ((lookup "PARAMETERS").getD "0,2,4,6") >>= fun parameters =>
      readOr (lookup "BLOCK_SIZE") defaultBlockSize (readNumber "BLOCK_SIZE" readBlockSize) >>=
        fun blockSize =>
      readOr (lookup "WORK_UNIT_MS") 500 (readNumber "WORK_UNIT_MS" readMillis) >>= fun workUnit =>
      .ok ⟨endpoint, target, parameters, blockSize.val, blockSize.property, workUnit,
        lookup "SLAVE_NAME"⟩) := rfl

theorem answers_read (lookup : String → Option String) :
    Answers lookup Check.order (read lookup) (fun s => AsGiven lookup s ∧ Runnable s) := by
  rw [read_eq]
  -- each step makes the next of the checks, and what it read is at hand for those behind it
  apply (answers_readOr (c := .endpoint) readEndpoint_eq fun _ _ => Iff.rfl).bind
  intro endpoint hendpoint
  apply (answers_readOr (c := .accuracy) (readNumber_eq _ _) fun _ _ => Iff.rfl).bind
  intro accuracy haccuracy
  apply (answers_readOr (c := .confidence) (readNumber_eq _ _) fun _ _ => Iff.rfl).bind
  intro confidence hconfidence
  apply (answers_target haccuracy hconfidence).bind
  intro target htarget
  apply answers_parameters.bind
  intro parameters hparameters
  apply (answers_readOr (c := .blockSize) (readNumber_eq _ _) fun _ _ => Iff.rfl).bind
  intro blockSize hblockSize
  apply (answers_readOr (c := .workUnit) (readNumber_eq _ _) fun _ _ => Iff.rfl).bind
  intro workUnit hworkUnit
  obtain ⟨rfl, haccuracy', hlevel⟩ := htarget
  obtain ⟨hgiven, hfinite⟩ := hparameters
  apply Answers.of_ok
  constructor
  · exact ⟨hendpoint, haccuracy, hconfidence, rfl, hgiven, hblockSize, hworkUnit, rfl⟩
  · exact ⟨haccuracy', hlevel, ne_nil_of_given hgiven, hfinite,
      one_le_of_ne_zero blockSize.property, exists_new _ _ hlevel⟩

/-- Settings that are read can be run with, they are not read where a variable that is set is
wrong, and of several wrong ones the first is told. -/
theorem first_fault_is_told (lookup : String → Option String) :
    (∀ s, read lookup = .ok s → AsGiven lookup s ∧ Runnable s) ∧
    ((∃ e, read lookup = .error e) ↔ ∃ c e, Faulty lookup c e) ∧
    ∀ e, read lookup = .error e ↔ IsFirst lookup Check.order e := by
  have hread := answers_read lookup
  refine ⟨hread.ok, ?_, hread.error_iff⟩
  have hmem : ∀ c : Check, c ∈ Check.order := by
    intro c
    cases c <;> decide
  simp only [hread.error_iff, exists_isFirst_iff, hmem, true_and]

/-- An accuracy out of range is not told before a confidence that is no number. -/
example :
    let lookup key :=
      if key = "ACCURACY" then some "7" else if key = "CONFIDENCE" then some "?" else none
    (match read lookup with
      | .error e => e.message
      | .ok _ => "read") = "invalid CONFIDENCE: \"?\"" := by
  decide +kernel

end FleetEstimate.Settings
