import FleetEstimate.Proofs.Channel.Descriptions
import FleetEstimate.Proofs.Estimation.Samples

/-!
# A seed wipes out the past of a channel

Of all that was done with a channel four things are left: its block size, the parameter that it
was last set to, the seed that it was last given, and how many samples were drawn since. How many
words of the random stream a sample takes depends on the words, but not on the parameter, as the
noise is drawn before it is scaled. So the place in the stream goes by the number of samples,
whatever parameters they were drawn at.

Channels stand on a shelf, and a clone takes a place of its own there. What is done with one
place leaves all others as they are.
-/

namespace FleetEstimate

open Experiment

/-- Behind the words that one bit takes: a coin, and then a normal variable. -/
def Random.Generator.pastBit (g : Random.Generator) : Random.Generator := g.coin.2.normal.2

namespace UncodedChannel

open Random.Generator (pastBit)

variable {c : UncodedChannel} {x y : Real64} {s t : UInt64}

/-! ## Seeds, parameters and samples -/

theorem bitError_snd (sigma : Float) (g : Random.Generator) :
    (bitError sigma g).2 = g.pastBit := by
  unfold bitError Random.Generator.pastBit
  -- the draws are generalized, lest they be computed
  rcases g.coin with ⟨bit, g⟩
  dsimp only

/-- Neither the noise nor the errors so far tell how the stream is read. -/
theorem bitErrors_snd (sigma : Float) (bits errors : ℕ) (g : Random.Generator) :
    (bitErrors sigma bits errors g).2 = pastBit^[bits] g := by
  induction bits generalizing errors g with
  | zero => rfl
  | succ bits ih =>
    rw [Function.iterate_succ_apply, ← bitError_snd sigma, bitErrors]
    rcases bitError sigma g with ⟨wrong, g⟩
    exact ih _ g

theorem sample_snd (c : UncodedChannel) :
    (sample c).2 = { c with generator := pastBit^[c.blockSize.toNat] c.generator } := by
  have hsample : (sample c).2 = c.sendBlock.2 := rfl
  rw [hsample, sendBlock, ← bitErrors_snd c.sigma c.blockSize.toNat 0]

theorem seed_seed : seed s (seed t c) = seed s c := rfl

theorem seed_setParameter : seed s (setParameter x c) = setParameter x (seed s c) := rfl

theorem seed_sample : seed s (sample c).2 = seed s c := by
  rw [sample_snd]
  rfl

theorem sample_setParameter : (sample (setParameter x c)).2 = setParameter x (sample c).2 := by
  rw [sample_snd, sample_snd]
  rfl

theorem seed_skip (n : ℕ) : seed s (skip n c) = seed s c := by
  induction n with
  | zero => rfl
  | succ n ih => rw [skip_succ, seed_sample, ih]

theorem blockSize_skip (n : ℕ) : (skip n c).blockSize = c.blockSize := by
  induction n with
  | zero => rfl
  | succ n ih => rw [skip_succ, sample_snd, ih]

/-- A new channel counts as seeded with zero and set to zero. -/
theorem new_eq (n : UInt64) (h : n ≠ 0) : new n h = setParameter 0 (seed 0 (new n h)) := by
  have hzero : (0.0 : Float) = (0 : Real64).toFloat := rfl
  have hsigma : noiseDeviation 0.0 = noiseDeviation (0 : Real64).toFloat :=
    congrArg noiseDeviation hzero
  unfold new
  rw [hsigma]
  rfl

/-! ## What is left of the past -/

/-- What is left of the past of a channel. -/
structure Past where
  blockSize : UInt64
  blockSize_ne_zero : blockSize ≠ 0
  /-- The parameter that it was last set to. -/
  parameter : Real64
  /-- The seed that it was last given. -/
  seed : UInt64
  /-- How many samples were drawn since then. -/
  samples : ℕ

/-- The past of a channel that has none. -/
def Past.fresh (blockSize : UInt64) (h : blockSize ≠ 0) : Past := ⟨blockSize, h, 0, 0, 0⟩

/-- A channel with this past. -/
def Past.channel (p : Past) : UncodedChannel :=
  Experiment.setParameter p.parameter
    (skip p.samples (Experiment.seed p.seed (new p.blockSize p.blockSize_ne_zero)))

theorem Past.blockSize_channel (p : Past) : p.channel.blockSize = p.blockSize :=
  blockSize_skip p.samples

/-- What can be done with a channel. -/
inductive Act
  | seed (s : UInt64)
  | seedFrom (g : Random.Generator)
  | setParameter (x : Real64)
  | sample
  /-- It gives way to what its text is read as. -/
  | rebuild

def Act.perform : Act → UncodedChannel → Except LinkError UncodedChannel
  | .seed s, c => .ok (Experiment.seed s c)
  | .seedFrom g, c => .ok (Experiment.seedFrom g c)
  | .setParameter x, c => .ok (Experiment.setParameter x c)
  | .sample, c => .ok (Experiment.sample c).2
  | .rebuild, c => Experiment.ofText (Experiment.toText c)

/-- What it adds to the past. -/
def Act.note : Act → Past → Past
  | .seed s, p => { p with seed := s, samples := 0 }
  | .seedFrom g, p => { p with seed := g.doubleWord.1, samples := 0 }
  | .setParameter x, p => { p with parameter := x }
  | .sample, p => { p with samples := p.samples + 1 }
  | .rebuild, p => .fresh p.blockSize p.blockSize_ne_zero

theorem seed_channel (p : Past) (s : UInt64) :
    Experiment.seed s p.channel = ({ p with seed := s, samples := 0 } : Past).channel := by
  unfold Past.channel
  rw [seed_setParameter, seed_skip, seed_seed]
  rfl

theorem Act.perform_channel (a : Act) (p : Past) :
    a.perform p.channel = .ok (a.note p).channel := by
  cases a with
  | seed s => exact congrArg Except.ok (seed_channel p s)
  | seedFrom g => exact congrArg Except.ok (seed_channel p g.doubleWord.1)
  | setParameter x => rfl
  | sample =>
    -- a sample draws from the generator, which the parameter does not touch; so the parameter may
    -- as well be set behind it
    have hsample : (Experiment.sample p.channel).2 = (Act.sample.note p).channel := by
      unfold Past.channel Act.note
      rw [sample_setParameter, ← skip_succ]
    exact congrArg Except.ok hsample
  | rebuild =>
    -- the text tells the block size only: a rebuilt channel has a fresh past
    have hnew : new p.channel.blockSize p.channel.blockSize_ne_zero =
        (Past.fresh p.blockSize p.blockSize_ne_zero).channel := by
      simp only [p.blockSize_channel]
      exact new_eq p.blockSize p.blockSize_ne_zero
    exact (ofText_toText p.channel).trans (congrArg Except.ok hnew)

/-! ## A shelf of channels -/

/-- What can be done on a shelf of channels, which are told by their places. -/
inductive Move
  /-- A new channel comes to the end. -/
  | new (blockSize : UInt64) (h : blockSize ≠ 0)
  /-- A clone of the channel at a place comes to the end. -/
  | clone (place : ℕ)
  | act (place : ℕ) (a : Act)

def Move.perform : Move → List UncodedChannel → Except LinkError (List UncodedChannel)
  | .new n h, cs => .ok (cs ++ [.new n h])
  | .clone place, cs => .ok (cs ++ cs[place]?.toList)
  | .act place a, cs =>
    match cs[place]? with
    | some c => (a.perform c).map (cs.set place ·)
    | none => .ok cs

/-- The pasts on the shelf. A clone has the past of its original. -/
def Move.note : Move → List Past → List Past
  | .new n h, ps => ps ++ [.fresh n h]
  | .clone place, ps => ps ++ ps[place]?.toList
  | .act place a, ps => ps.modify place a.note

def performAll (ms : List Move) (cs : List UncodedChannel) :
    Except LinkError (List UncodedChannel) :=
  ms.foldlM (fun cs m => m.perform cs) cs

def noteAll (ms : List Move) (ps : List Past) : List Past := ms.foldl (fun ps m => m.note ps) ps

/-- Every move works, and leaves channels that are told by their pasts. -/
theorem Move.perform_map (m : Move) (ps : List Past) :
    m.perform (ps.map Past.channel) = .ok ((m.note ps).map Past.channel) := by
  cases m with
  | new n h =>
    have hnew : UncodedChannel.new n h = (Past.fresh n h).channel := new_eq n h
    simp [Move.perform, Move.note, hnew]
  | clone place =>
    simp only [Move.perform, Move.note, List.getElem?_map, List.map_append]
    -- a place that holds nothing gives no clone
    cases ps[place]? <;> rfl
  | act place a =>
    simp only [Move.perform, Move.note, List.getElem?_map, List.modify_eq_set_getElem?]
    cases hplace : ps[place]? with
    | none => rfl
    | some p => simp [a.perform_channel, List.map_set, Except.map]

theorem performAll_map (ms : List Move) (ps : List Past) :
    performAll ms (ps.map Past.channel) = .ok ((noteAll ms ps).map Past.channel) := by
  induction ms generalizing ps with
  | nil => rfl
  | cons m ms ih =>
    rw [performAll, List.foldlM_cons, m.perform_map]
    exact ih (m.note ps)

theorem performAll_nil (ms : List Move) :
    performAll ms [] = .ok ((noteAll ms []).map Past.channel) := performAll_map ms []

/-- Places are never taken away, and nothing but an act on a place changes it. -/
theorem Move.getElem?_note {m : Move} {ps : List Past} {i : ℕ} {p : Past} (hp : ps[i]? = some p)
    (hm : ∀ a, m ≠ .act i a) : (m.note ps)[i]? = some p := by
  obtain ⟨hi, -⟩ := List.getElem?_eq_some_iff.mp hp
  cases m with
  | new n h => rwa [Move.note, List.getElem?_append_left hi]
  | clone place => rwa [Move.note, List.getElem?_append_left hi]
  | act place a =>
    have hplace : place ≠ i := by
      rintro rfl
      exact hm a rfl
    rwa [Move.note, List.getElem?_modify_ne _ _ hplace]

theorem getElem?_noteAll {ms : List Move} {ps : List Past} {i : ℕ} {p : Past}
    (hp : ps[i]? = some p) (hms : ∀ a, .act i a ∉ ms) : (noteAll ms ps)[i]? = some p := by
  induction ms generalizing ps with
  | nil => exact hp
  | cons m ms ih =>
    have hfirst : ∀ a, m ≠ .act i a := by
      rintro a rfl
      exact hms a List.mem_cons_self
    exact ih (Move.getElem?_note hp hfirst) fun a ha => hms a (List.mem_cons_of_mem m ha)

/-- The channel stands at some place behind the moves, and this is the past that it has there. -/
def Stands (ms : List Move) (p : Past) (c : UncodedChannel) : Prop :=
  ∃ (cs : List UncodedChannel) (i : ℕ), performAll ms [] = .ok cs ∧ cs[i]? = some c ∧
    (noteAll ms [])[i]? = some p

/-- A channel is what its past makes it. -/
theorem Stands.eq_channel {ms : List Move} {p : Past} (h : Stands ms p c) : c = p.channel := by
  obtain ⟨cs, i, hrun, hc, hp⟩ := h
  rw [performAll_nil] at hrun
  cases hrun
  rw [List.getElem?_map, hp] at hc
  exact (Option.some.inj hc).symm

/-- Channels stay as they are while nothing is done with them. -/
theorem getElem?_performAll {ms ms' : List Move} {cs : List UncodedChannel} {i : ℕ}
    (hrun : performAll ms [] = .ok cs) (hc : cs[i]? = some c) (hms : ∀ a, .act i a ∉ ms') :
    ∃ cs', performAll (ms ++ ms') [] = .ok cs' ∧ cs'[i]? = some c := by
  rw [performAll_nil] at hrun
  cases hrun
  rw [List.getElem?_map, Option.map_eq_some_iff] at hc
  obtain ⟨p, hp, rfl⟩ := hc
  refine ⟨_, performAll_nil (ms ++ ms'), ?_⟩
  -- the pasts tell the channels, and no move of these notes anything at the place
  have hkept : (noteAll (ms ++ ms') [])[i]? = some p := by
    rw [noteAll, List.foldl_append]
    exact getElem?_noteAll hp hms
  rw [List.getElem?_map, hkept]
  rfl

/-- Whatever is done with channels works, and every channel has a past. Two channels of the same
past, from whatever moves, have one parameter and one text and give the same samples, for nothing
tells them apart. A parameter may be set before a seed or behind it and does not touch the random
stream, not even that behind a sample; and a sample leaves the parameter, the text and the block
size. What is done with a clone, or with any other channel, leaves a channel as it is. -/
theorem seed_wipes_out_past :
    (∀ ms, ∃ cs, performAll ms [] = .ok cs ∧ cs.length = (noteAll ms []).length) ∧
    (∀ ms ms' p c c', Stands ms p c → Stands ms' p c' →
      parameter c = parameter c' ∧ toText c = toText c' ∧ (∀ n, draws n c = draws n c') ∧
        c = c') ∧
    (∀ (c : UncodedChannel) x s,
      setParameter x (seed s c) = seed s (setParameter x c) ∧
      (setParameter x c).generator = c.generator ∧
      (sample (setParameter x c)).2 = setParameter x (sample c).2 ∧
      parameter (sample c).2 = parameter c ∧ toText (sample c).2 = toText c ∧
        (sample c).2.blockSize = c.blockSize) ∧
    (∀ ms ms' cs i (c : UncodedChannel), performAll ms [] = .ok cs → cs[i]? = some c →
      (∀ a, .act i a ∉ ms') →
      ∃ cs', performAll (ms ++ ms') [] = .ok cs' ∧ cs'[i]? = some c) := by
  refine ⟨?works, ?alike, ?laws, fun _ _ _ _ _ => getElem?_performAll⟩
  case works =>
    intro ms
    exact ⟨_, performAll_nil ms, List.length_map _⟩
  case alike =>
    intro ms ms' p c c' h h'
    -- a channel is told by its past, so two of one past are equal
    have heq : c = c' := h.eq_channel.trans h'.eq_channel.symm
    rw [heq]
    exact ⟨rfl, rfl, fun _ => rfl, rfl⟩
  case laws =>
    intro c x s
    refine ⟨seed_setParameter.symm, rfl, sample_setParameter, ?_, ?_, ?_⟩ <;> rw [sample_snd]
    · rfl
    · rfl

example (h : (8 : UInt64) ≠ 0) :
    noteAll [.new 8 h, .act 0 .sample, .act 0 (.seed 3), .clone 0, .act 1 .sample] [] =
      [⟨8, h, 0, 3, 0⟩, ⟨8, h, 0, 3, 1⟩] := rfl

end UncodedChannel

end FleetEstimate
