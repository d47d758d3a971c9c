import SharedNames.Proofs.KeyReading
import SharedNames.Proofs.Registry.Run

/-!
A refused attachment tells which keys it is about.

A key that is to be attached to one without a group is refused: the client gets an error,
the log a record, and that is all (`perform_attach_of_absent`). Error and record name keys
by their texts alone, and these can have anything in them, the words of the error and of
the record and double quotes included. Yet no two of them are alike.

* `RegistryError.message_injective`, `RegistryError.text_injective`: what is shown of an
  error determines it.
* `refusals_identify_keys` puts this together with what is read from the texts of keys and
  records.
-/

namespace SharedNames

namespace RegistryError

theorem message_injective : Function.Injective message := by
  rintro ⟨s⟩ ⟨t⟩ same
  exact congrArg noGroup ((String.append_right_inj _).mp same)

/-- Errors with the same text are the same: the key in it is quoted, and can be read back. -/
theorem text_injective : Function.Injective text := by
  rintro ⟨s⟩ ⟨t⟩ same
  have quoted := (String.append_right_inj _).mp ((String.append_left_inj _).mp same)
  exact congrArg noGroup (Text.quote_injective quoted)

theorem noGroup_text_injective : Function.Injective fun key : ContextKey => noGroup key.text := by
  intro key other same
  exact ContextKey.text_injective (noGroup.inj same)

end RegistryError

namespace Registry

/-- Attaching to a key without a group fails and changes nothing. The error names the key
without a group, and the record both keys. -/
theorem perform_attach_of_absent {r : Registry} {existing : ContextKey}
    (absent : r.keys[existing]? = none) (policy : Policy) (key : ContextKey) :
    r.perform policy (.attach key existing) =
      ⟨.failed (.noGroup existing.text), r, [.noted (.attachRefused key existing)], []⟩ := by
  simp only [perform, change, attach, absent, settle_nil, List.append_nil]

/-- The text of a label is its quoted text; every key is read back from its text, and the text of a
label is no proper prefix of that of another one. So where two attachments are refused, the errors
are the same exactly if they are about the same existing key, and so are their messages and their
texts; and a record that reads like that of a refused attachment is about the same two keys. -/
theorem refusals_identify_keys (r : Registry) (policy : Policy) (key₁ key₂ : ContextKey)
    {existing₁ existing₂ : ContextKey} (absent₁ : r.keys[existing₁]? = none)
    (absent₂ : r.keys[existing₂]? = none) :
    (∀ s text, Text.Quoted.Quotes s text ↔ text = (ContextKey.label s).text) ∧
    (∀ key : ContextKey, ContextKey.ofText? key.text = some key) ∧
    (∀ s t, (ContextKey.label s).text.toList <+: (ContextKey.label t).text.toList → s = t) ∧
    (∃ error₁ error₂,
      r.perform policy (.attach key₁ existing₁) =
        ⟨.failed error₁, r, [.noted (.attachRefused key₁ existing₁)], []⟩ ∧
      r.perform policy (.attach key₂ existing₂) =
        ⟨.failed error₂, r, [.noted (.attachRefused key₂ existing₂)], []⟩ ∧
      (error₁ = error₂ ↔ existing₁ = existing₂) ∧
      (error₁.message = error₂.message ↔ existing₁ = existing₂) ∧
      (error₁.text = error₂.text ↔ existing₁ = existing₂)) ∧
    ∀ (key existing : ContextKey) (record : Record),
      record.text = (Record.attachRefused key existing).text ↔
        record = .attachRefused key existing := by
  have errors : RegistryError.noGroup existing₁.text = .noGroup existing₂.text ↔
      existing₁ = existing₂ := RegistryError.noGroup_text_injective.eq_iff
  refine ⟨fun s text => Text.Quoted.quotes_iff, ContextKey.ofText?_text,
    fun s t => ContextKey.label_eq_of_prefix, ?_,
    fun key existing record => Record.text_eq_attachRefused_iff⟩
  refine ⟨_, _, perform_attach_of_absent absent₁ policy key₁,
    perform_attach_of_absent absent₂ policy key₂, errors, ?_, ?_⟩
  · rw [RegistryError.message_injective.eq_iff, errors]
  · rw [RegistryError.text_injective.eq_iff, errors]

/-- Two refusals whose records would read the same if quotes were not escaped. -/
theorem refusals_identify_keys_of_lookalikes :
    ∃ log r error₁ error₂, Run ⟨.reuse, 1⟩ [.create (.label "a")] log r [] ∧
      "\"" ++ "a\": no share group for \"b" ++ "\": no share group for \"" ++ "c" ++ "\"" =
        "\"" ++ "a" ++ "\": no share group for \"" ++ "b\": no share group for \"c" ++ "\"" ∧
      (r.perform .standard (.attach (.label "a\": no share group for \"b") (.label "c"))).reply =
        .failed error₁ ∧
      (r.perform .standard (.attach (.label "a") (.label "b\": no share group for \"c"))).reply =
        .failed error₂ ∧
      error₁.message = "no share group attached to key \"c\"" ∧
      error₂.message =
        "no share group attached to key \"b\\\": no share group for \\\"c\"" ∧
      error₁ ≠ error₂ ∧ error₁.message ≠ error₂.message ∧ error₁.text ≠ error₂.text ∧
      (Record.attachRefused (.label "a\": no share group for \"b") (.label "c")).text ≠
        (Record.attachRefused (.label "a") (.label "b\": no share group for \"c")).text := by
  have fresh : Run ⟨.reuse, 1⟩ [] [] _ [] := .start
  have run := fresh.performAll .standard [.create (.label "a")] (by decide)
  have reached : ∃ log r, Run ⟨.reuse, 1⟩ [.create (.label "a")] log r [] ∧
      r.keys[ContextKey.label "c"]? = none ∧
      r.keys[ContextKey.label "b\": no share group for \"c"]? = none :=
    ⟨_, _, run, by decide, by decide⟩
  obtain ⟨log, r, run, absent₁, absent₂⟩ := reached
  obtain ⟨-, -, -, ⟨error₁, error₂, refused₁, refused₂, errors, messages, texts⟩, records⟩ :=
    refusals_identify_keys r .standard (.label "a\": no share group for \"b") (.label "a")
      absent₁ absent₂
  have apart : ContextKey.label "c" ≠ .label "b\": no share group for \"c" := by decide
  refine ⟨log, r, error₁, error₂, run, by decide, by rw [refused₁], by rw [refused₂], ?_, ?_,
    mt errors.mp apart, mt messages.mp apart, mt texts.mp apart, ?_⟩
  · rw [perform_attach_of_absent absent₁] at refused₁
    cases refused₁
    decide
  · rw [perform_attach_of_absent absent₂] at refused₂
    cases refused₂
    decide
  · rw [Ne, records]
    decide

end Registry

end SharedNames
