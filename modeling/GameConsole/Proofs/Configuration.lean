import GameConsole.Configuration
import GameConsole.Proofs.Json.Records

/-! Configurations as text. What is written for one is read back as that one, whatever its settings
are, so the text that is written for it is a normal form of every text it is read from. -/
namespace GameConsole.Configuration
open Json (Answers Fills Legible fieldAnswers flagAnswers u32Answers u64Answers)

theorem memoryLegible : Legible memoryFields := ⟨by decide +kernel, by decide +kernel⟩
theorem decoderLegible : Legible decoderFields := ⟨by decide +kernel, by decide +kernel⟩
theorem legible : Legible fields := ⟨by decide +kernel, by decide +kernel⟩

theorem memoryFilled (c start : MemoryConfig) :
    Fills memoryFields [("size_bytes", .natural c.sizeBytes.toNat),
      ("enforce_alignment", .flag c.enforceAlignment)] start c :=
  .cons (fieldAnswers (u64Answers c.sizeBytes) _ _)
    (.cons (fieldAnswers (flagAnswers c.enforceAlignment) _ _) (.nil c))

theorem decoderFilled (c start : DecoderConfig) :
    Fills decoderFields [("max_indirect_depth", .natural c.maxIndirectDepth.toNat)] start c :=
  .cons (fieldAnswers (u32Answers c.maxIndirectDepth) _ _) (.nil c)

theorem answers (c start : Configuration) :
    Answers (Json.readRecord .refused fields start) c.layout c := by
  have memory := Json.recordAnswers memoryLegible (memoryFilled c.memory {}) .skipped
  have decoder := Json.recordAnswers decoderLegible (decoderFilled c.decoder {}) .skipped
  have filled : Fills fields _ start c :=
    .cons (fieldAnswers memory _ _) <|
    .cons (fieldAnswers decoder _ _) <|
    .cons (fieldAnswers (u64Answers c.pausePoll) _ _) <|
    .cons (fieldAnswers (u64Answers c.stepsPerTick) _ _) <|
    .cons (fieldAnswers (u64Answers c.stackReserve) _ _) <|
    .cons (fieldAnswers (flagAnswers c.neoMode) _ _) (.nil c)
  exact Json.recordAnswers legible filled .refused

theorem readsBack (c : Configuration) :
    ofText c.toText = .ok c ∧ (ofText c.toText).map toText = .ok c.toText := by
  have read : ofText c.toText = .ok c := by
    rw [ofText, toText, Json.Layout.toText, String.toList_ofList]
    exact Json.readAllAnswers (answers c {})
  exact ⟨read, congrArg (Except.map toText) read⟩

end GameConsole.Configuration
