import AthenaAI.Python.Value

/-!
# The document parser

`athenai.rag.parser`. `parse` checks that a document has text and collapses every run of whitespace
in it to one space.

* `ParsedDocument` is what the chunker gets: the text, with the identifier, the source and the
  metadata of the caller.
* `DocumentParser.parse_eq_ok_iff`: what `parse` returns, and that it raises exactly for the texts
  that are blank. The text does not depend on the source and the metadata.
* That the text of a parsed document is `PyStr.Collapsed` is what `Rag.Edges` uses.
-/

/-- A document ready for chunking. -/
structure ParsedDocument where
  /-- The identifier the caller gave. -/
  documentId : PyStr
  /-- The text, with whitespace collapsed. -/
  content : PyStr
  /-- Where the document comes from. -/
  source : PyStr
  /-- The metadata the caller gave. -/
  metadata : PyDict

namespace DocumentParser

/-- `DocumentParser.parse`. -/
def parse (content documentId : PyStr) (source : PyStr := []) (metadata : Option PyDict := none) :
    Except PyExc ParsedDocument :=
  -- the source asks for both, though a blank content includes an empty one
  if content.isEmpty || content.strip.isEmpty then
    .error (.of .ValueError ("document ".toList ++ documentId.repr ++ " has empty content".toList))
  else
    let normalised := PyStr.join [' '] content.split
    .ok {
      documentId := documentId
      content := normalised
      source := source
      metadata := metadata.getD [] }

/-- `parse` accepts the documents that are not blank, and collapses their white space: the content
becomes `' '.join(content.split())`. -/
theorem parse_eq_ok_iff {content documentId source : PyStr} {metadata : Option PyDict}
    {doc : ParsedDocument} :
    parse content documentId source metadata = .ok doc ↔ content.strip ≠ [] ∧
      doc = ⟨documentId, PyStr.join [' '] content.split, source, metadata.getD []⟩ := by
  by_cases hblank : content.strip = []
  · rw [parse, if_pos (by rw [hblank, List.isEmpty_nil, Bool.or_true])]
    exact iff_of_false (fun h => nomatch h) fun h => h.1 hblank
  · have hnil : content ≠ [] := by
      rintro rfl
      exact hblank rfl
    rw [parse, if_neg (by simp [hnil, hblank])]
    constructor
    · intro h
      exact ⟨hblank, (Except.ok.inj h).symm⟩
    · rintro ⟨-, rfl⟩
      rfl

/-- A document that is not blank is parsed. -/
theorem parse_of_not_blank {content : PyStr} (hblank : content.strip ≠ [])
    (documentId source : PyStr) (metadata : Option PyDict) :
    parse content documentId source metadata =
      .ok ⟨documentId, PyStr.join [' '] content.split, source, metadata.getD []⟩ :=
  parse_eq_ok_iff.mpr ⟨hblank, rfl⟩

/-- A blank document is refused. -/
theorem exists_parse_eq_error {content : PyStr} (hblank : content.strip = [])
    (documentId source : PyStr) (metadata : Option PyDict) :
    ∃ e, parse content documentId source metadata = .error e := by
  cases hparse : parse content documentId source metadata with
  | ok doc => exact absurd hblank (parse_eq_ok_iff.mp hparse).1
  | error e => exact ⟨e, rfl⟩

end DocumentParser
