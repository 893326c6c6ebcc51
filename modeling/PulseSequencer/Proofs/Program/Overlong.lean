import PulseSequencer.Proofs.Program.Compilable
import PulseSequencer.Proofs.Sequence.Length

/-!
# The report of an overlong sequence

A sequence can be found too long in two places: where its length is compared with the longest one
that is configured, and where a tick has to fit into a word. Both report a length and the configured
maximum. The sequences of a builder pass the comparison, so the reports come from the second place.
The length they name is that of a tick that has no word, and nothing relates such a tick to the
configured maximum.

* `Builder.TooLong`: a builder reports a length and a maximum.
* `Builder.tooLong_of_run`: what the two are.
* `Builder.tooLong_exceeds_iff`: for which configurations the length always exceeds the maximum;
  `tooLong_not_exceeds` is a report in which it does not.
-/

namespace PulseSequencer.Builder

variable {config : Configuration} {registry : Registry}

/-- The compilation is refused with the report of a length and a maximum. -/
def TooLong (b : Builder) (length maximum : Nat) : Prop :=
  b.compile = .error (.sequenceTooLong length maximum)

/-- A new sequence may be extended up to the longest length. -/
lemma sequence_of_extend {b : Builder} {length : Nat} (h : length ≤ b.timing.maxLength) :
    (b.run [.newSequence, .extend length]).sequence = some (Sequence.empty.extend length) := by
  have hextend : b.newSequence.perform (.extend length) = .ok _ :=
    extend_eq_ok.mpr ⟨⟨_, rfl⟩, h, rfl⟩
  rw [run_newSequence_of_ok hextend]
  rfl

section
variable (hregistry : Registry.ofConfiguration config = .ok registry)
include hregistry

/-- The length of a report is that of a tick that has no word, and the sequence has this tick. -/
lemma tooLong_of_run (requests : List Request) {length maximum : Nat}
    (h : ((new registry config.timing).run requests).TooLong length maximum) :
    maximum = config.timing.maxLength ∧
      ∃ s ∈ ((new registry config.timing).run requests).sequence, ∃ tick, Word.count ≤ tick ∧
        tick ≤ config.timing.cover s.declaredLength ∧
        length = tick * config.timing.resolution := by
  cases hs : ((new registry config.timing).run requests).sequence with
  | none =>
    rw [TooLong, compile, hs] at h
    cases h
  | some s =>
    have compilable := compilable_of_run hregistry requests hs
    rw [TooLong, run_eq hs] at h
    obtain ⟨tick, htick, hwithin, herror⟩ := compilable.tooLong_of_le (compilable.le_of_tooLong h)
    cases h.symm.trans herror
    exact ⟨rfl, s, rfl, tick, htick, hwithin, rfl⟩

/-- A sequence that ends with the first tick without a word is reported with the time of this
tick. -/
lemma tooLong_of_cover_eq {requests : List Request} {s : Sequence}
    (hs : ((new registry config.timing).run requests).sequence = some s)
    (htotal : config.timing.cover s.declaredLength = Word.count) :
    ((new registry config.timing).run requests).TooLong
      (Word.count * config.timing.resolution) config.timing.maxLength := by
  obtain ⟨tick, htick, hwithin, herror⟩ :=
    (compilable_of_run hregistry requests hs).tooLong_of_le htotal.ge
  rw [Nat.le_antisymm (hwithin.trans htotal.le) htick] at herror
  rw [TooLong, run_eq hs]
  exact herror

/-- If the maximum has room for the first tick without a word, then such a sequence is held. -/
lemma exists_tooLong_of_le
    (hroom : Word.count * config.timing.resolution ≤ config.timing.maxLength) :
    ∃ requests, ((new registry config.timing).run requests).TooLong
      (Word.count * config.timing.resolution) config.timing.maxLength := by
  refine ⟨_, tooLong_of_cover_eq hregistry (sequence_of_extend hroom) ?_⟩
  have hdeclared : (Sequence.empty.extend (Word.count * config.timing.resolution)).declaredLength =
      Word.count * config.timing.resolution := by
    simp [Sequence.extend, Sequence.empty, Sequence.declaredLength, Sequence.finish]
  rw [hdeclared]
  exact Timing.cover_mul (resolution_ne_of_ofConfiguration hregistry) Word.count

/-- A builder of an accepted configuration that reports a length and a maximum names the configured
maximum and a tick of its sequence that has no word. Every such length exceeds the maximum exactly
if the configured maximum is shorter than the ticks that have a word. -/
theorem tooLong_exceeds_iff :
    (∀ requests length maximum,
      ((new registry config.timing).run requests).TooLong length maximum →
        maximum = config.timing.maxLength ∧
          ∃ s ∈ ((new registry config.timing).run requests).sequence, ∃ tick, Word.count ≤ tick ∧
            tick ≤ config.timing.cover s.declaredLength ∧
            length = tick * config.timing.resolution) ∧
    ((∀ requests length maximum,
      ((new registry config.timing).run requests).TooLong length maximum → maximum < length) ↔
        config.timing.maxLength < Word.count * config.timing.resolution) := by
  refine ⟨fun requests _ _ => tooLong_of_run hregistry requests, fun hexceeds => ?_, ?_⟩
  · by_contra hroom
    obtain ⟨requests, h⟩ := exists_tooLong_of_le hregistry (Nat.le_of_not_lt hroom)
    exact hroom (hexceeds requests _ _ h)
  · intro hshort requests length maximum h
    obtain ⟨rfl, -, -, tick, htick, -, rfl⟩ := tooLong_of_run hregistry requests h
    exact Nat.lt_of_lt_of_le hshort (Nat.mul_le_mul_right _ htick)

end

/-- The standard board counts in 40 ns and holds 85 s, which is less than the words can tell. -/
theorem repump_tooLong_exceeds :
    Registry.ofConfiguration repumpConfiguration = .ok repumpRegistry ∧
      ∀ requests length maximum,
        ((new repumpRegistry repumpConfiguration.timing).run requests).TooLong length maximum →
          maximum < length := by
  refine ⟨ofConfiguration_repump, ?_⟩
  exact (tooLong_exceeds_iff ofConfiguration_repump).2.mpr (by decide)

/-- A board with a shutter that counts in single nanoseconds and is said to hold 100 s. -/
def fineConfiguration : Configuration :=
  { repumpConfiguration with resolution := 1, maxLength := 100000000000 }

set_option maxRecDepth 20000 in
/-- The configuration is accepted. -/
lemma ofConfiguration_fine : Registry.ofConfiguration fineConfiguration = .ok repumpRegistry := by
  have hvalid : fineConfiguration.validate = .ok () := rfl
  exact ofConfiguration_of_ordered hvalid (List.pairwise_singleton _ _)

/-- A pulse of 4294967296 ns is refused for exceeding 100 s. -/
theorem tooLong_not_exceeds :
    Registry.ofConfiguration fineConfiguration = .ok repumpRegistry ∧
      ((new repumpRegistry fineConfiguration.timing).run
        [.newSequence, .ttl ⟨"shutter", 0, 4294967296⟩]).TooLong 4294967296 100000000000 ∧
      ¬ 100000000000 < 4294967296 := by
  refine ⟨ofConfiguration_fine, ?_, by decide⟩
  have hs : ((new repumpRegistry fineConfiguration.timing).run
      [.newSequence, .ttl ⟨"shutter", 0, 4294967296⟩]).sequence =
        some ⟨[.ttl ⟨4, 0, 4294967296⟩], 0⟩ := rfl
  exact tooLong_of_cover_eq ofConfiguration_fine hs (by decide)

end PulseSequencer.Builder
