import LabelAutomaton.Proofs.Checkpoint.Grammar

/-!
# Checkpoints cut short or run on

The text of a checkpoint ends with the brace that closes it. A text that can be read may go on
with white space only (`Json.Document.read_append_of_ok`). Hence no part of the text up to some
place before its end is read, and nothing is read if something follows the text
(`Checkpoint.ofJson_whole`); the version is not even looked at.
-/

set_option autoImplicit false

namespace LabelAutomaton

open Json

/-- The text of an object ends with its brace. -/
theorem Json.Value.getLast?_toText (ms : List (String × Value)) :
    (ofMembers ms).toText.toList.getLast? = some '}' := by
  rw [toText, String.toList_ofList, ofMembers_eq, tokens_object, ← List.cons_append,
    List.flatMap_append, List.flatMap_singleton, Token.toChars, List.getLast?_concat]

namespace Checkpoint

theorem read_append {text : String} {c : Checkpoint}
    (h : Document.read ofValue text = .ok c) (more : String) :
    Document.read ofValue (text ++ more) =
      if more.toList.all Token.isSpace then .ok c else .error .malformedJson :=
  Document.read_append_of_ok isWhole_ofValue
    (fun _ _ ↦ Record.isBracketed_of_members_bind (by decide)) h more

/-- **No part of a checkpoint is taken for the whole, nor is a text that goes on.** What is read of
the beginning of its text is unreadable, and so is the text with anything but white space behind
it, whatever the version. -/
theorem ofJson_whole (c : Checkpoint) :
    (∀ start rest : String, c.toJson = start ++ rest → rest ≠ "" →
      ∃ cause, ofJson start = .error (.unreadable cause)) ∧
    ∀ more : String, ofJson (c.toJson ++ more) =
      if more.toList.all Token.isSpace then ofJson c.toJson
      else .error (.unreadable .malformedJson) := by
  constructor
  · intro start rest htext hrest
    rw [ofJson]
    cases hread : Document.read ofValue start with
    | error cause => exact ⟨cause, rfl⟩
    | ok d =>
      -- then the rest would be white space, but it ends with the brace of the text
      have hwhole := read_append hread rest
      rw [← htext, read_toJson] at hwhole
      have hspace : ∀ x ∈ rest.toList, Token.isSpace x = true := by
        refine List.all_eq_true.1 ?_
        split at hwhole
        · assumption
        · cases hwhole
      have hne : rest.toList ≠ [] := fun hnil ↦ hrest (String.toList_eq_nil_iff.1 hnil)
      have hbrace : rest.toList.getLast? = some '}' := by
        rw [← List.getLast?_append_of_ne_nil start.toList hne, ← String.toList_append, ← htext]
        exact Value.getLast?_toText _
      cases hspace _ (List.mem_of_getLast? hbrace)
  · intro more
    rw [ofJson, ofJson, read_append c.read_toJson, read_toJson]
    split <;> rfl

/-- A checkpoint of a version that is not supported. -/
def untimely : Checkpoint := { tidy with version := 2 }

/-- Without its last brace, a checkpoint of another version is unreadable, and with a comma behind
it too; with a space behind it the version is what is wrong. -/
theorem ofJson_whole_untimely :
    (∃ cause, ofJson (String.ofList untimely.toJson.toList.dropLast) =
      .error (.unreadable cause)) ∧
    ofJson (untimely.toJson ++ ",") = .error (.unreadable .malformedJson) ∧
    ofJson (untimely.toJson ++ " ") = .error (.unsupportedVersion 2) := by
  have htext : untimely.toJson = String.ofList untimely.toJson.toList.dropLast ++ "\x7d" := by
    rw [← String.toList_inj, String.toList_append, String.toList_ofList]
    exact (List.dropLast_append_getLast? _ (Value.getLast?_toText _)).symm
  refine ⟨(ofJson_whole untimely).1 _ _ htext (by decide), ?_, ?_⟩
  · rw [(ofJson_whole untimely).2 ",", if_neg (by decide)]
  · rw [(ofJson_whole untimely).2 " ", if_pos (by decide), ofJson_eq_checkVersion]
    rfl

end Checkpoint

end LabelAutomaton
