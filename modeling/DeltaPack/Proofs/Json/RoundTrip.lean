import DeltaPack.Proofs.Json.Configuration
import DeltaPack.Proofs.Json.Summary

/-!
# Documents read back

Configurations and summaries survive their documents (`documents_roundTrip`): what was written is
read back, also when the members of an object have changed places or blanks stand between the
tokens.
-/

namespace DeltaPack

open Json Precoded

/-- **Configurations and summaries survive their documents.** Every configuration is loaded from its
text and from every document that spells it, and so is every summary whose numbers fit in 64
bits. -/
theorem documents_roundTrip :
    (∀ config : Config, config.Spells config.toJson ∧ Config.load config.toJson = .ok config ∧
      ∀ document, config.Spells document → Config.load document = .ok config) ∧
    ∀ summary : Summary, summary.Fits → summary.Spells summary.toJson ∧
      Summary.ofJson summary.toJson = .ok summary ∧
      ∀ document, summary.Spells document → Summary.ofJson document = .ok summary := by
  constructor
  · intro config
    have htext := config.spells_toJson
    exact ⟨htext, Config.load_of_spells htext, fun _ hdocument => Config.load_of_spells hdocument⟩
  · intro summary hfits
    have htext := summary.spells_toJson
    refine ⟨htext, Summary.ofJson_of_spells hfits htext, fun _ hdocument => ?_⟩
    exact Summary.ofJson_of_spells hfits hdocument

/-- The lowest level in front of its tag, and a summary of the largest numbers written backwards,
both with a blank in front of each token. -/
theorem documents_roundTrip_backwards :
    (∃ config document, config = ⟨.zstd Int32.minValue⟩ ∧
      document = Text.ascii
        " \x7b \"backend\" : \x7b \"level\" : -2147483648 , \"backend\" : \"zstd\" \x7d \x7d" ∧
      config.Spells document ∧ Config.load document = .ok config) ∧
    ∃ summary document,
      summary = ⟨2 ^ 64 - 1, Int32.maxValue, ⟨2 ^ 64 - 1, 0, 10, 1⟩, 2 ^ 64 - 1, 0, 2 ^ 64 - 1⟩ ∧
      document = Text.ascii " \x7b \"total_size\" : 18446744073709551615" ++
        Text.ascii " , \"residual_bytes\" : 0 , \"tag_bytes\" : 18446744073709551615" ++
        Text.ascii " , \"tag_counts\" : [ 18446744073709551615 , 0 , 10 , 1 ]" ++
        Text.ascii " , \"common_value\" : 2147483647 , \"num_ints\" : 18446744073709551615 \x7d" ∧
      summary.Fits ∧ summary.Spells document ∧ Summary.ofJson document = .ok summary := by
  have hblanks : Blanks (Text.ascii " ") := List.forall_mem_singleton.2 (by decide)
  constructor
  · have hspells : Config.Spells ⟨.zstd Int32.minValue⟩ _ :=
      ⟨_, _, ⟨_, .swap _ _ [], rfl⟩, ⟨_, .refl _, rfl⟩, spaced_flatMap hblanks _⟩
    exact ⟨_, _, rfl, by decide +kernel, hspells, (documents_roundTrip.1 _).2.2 _ hspells⟩
  · let summary : Summary :=
      ⟨2 ^ 64 - 1, Int32.maxValue, ⟨2 ^ 64 - 1, 0, 10, 1⟩, 2 ^ 64 - 1, 0, 2 ^ 64 - 1⟩
    have hfits : summary.Fits :=
      ⟨by decide, ⟨by decide, by decide, by decide, by decide⟩, by decide, by decide, by decide⟩
    have hspells : summary.Spells _ :=
      ⟨_, ⟨_, List.reverse_perm _, rfl⟩, spaced_flatMap hblanks _⟩
    refine ⟨summary, _, rfl, ?_, hfits, hspells, ?_⟩
    · decide +kernel
    · exact (documents_roundTrip.2 summary hfits).2.2 _ hspells

end DeltaPack
