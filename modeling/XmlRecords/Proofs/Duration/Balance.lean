import XmlRecords.Proofs.Duration.Rendering

/-! # Balanced formats

In a balanced text the braces stand in pairs: a field is closed before another one opens, and
outside of fields nothing is closed. Compiling such a text drops and adds no brace, so that
rendering gives it back. What is rendered is always balanced, whatever was compiled. Hence no other
text is given back, and rendering a second time changes nothing
(`Duration.Format.render_compile_eq_iff_isBalanced`).
-/

namespace XmlRecords

namespace Duration

namespace Format

/-- The braces of a text are balanced without nesting: outside of fields there is no closing brace,
and each opening brace is closed before another one comes. -/
inductive IsBalanced : List Char → Prop
  | nil : IsBalanced []
  | plain {char : Char} {rest : List Char} (here : isPlain char = true)
      (behind : IsBalanced rest) : IsBalanced (char :: rest)
  | field {spec rest : List Char} (here : spec.all isPlain) (behind : IsBalanced rest) :
      IsBalanced ('{' :: (spec ++ '}' :: rest))

theorem IsBalanced.plain_append {text rest : List Char} (plain : text.all isPlain)
    (behind : IsBalanced rest) : IsBalanced (text ++ rest) := by
  induction text with
  | nil => exact behind
  | cons char text ih =>
      rw [List.all_cons, Bool.and_eq_true] at plain
      exact .plain plain.1 (ih plain.2)

/-- No braces are rendered but those around a field. -/
theorem isBalanced_rendered {pieces : List Piece} (plain : ∀ piece ∈ pieces, piece.IsPlain) :
    IsBalanced (rendered pieces) := by
  induction pieces with
  | nil => exact .nil
  | cons piece pieces ih =>
      obtain ⟨here, behind⟩ := List.forall_mem_cons.mp plain
      cases piece with
      | literal text =>
          rw [rendered, List.flatMap_cons]
          exact .plain_append here.2 (ih behind)
      | field spec delimiter =>
          rw [rendered_field]
          exact .field here (ih behind)

theorem rendered_literalRun (run : List Char) (pieces : List Piece) :
    rendered (literalRun run ++ pieces) = run ++ rendered pieces := by
  cases run with
  | nil => rfl
  | cons char run =>
      rw [rendered, List.flatMap_append]
      change ([Piece.literal (String.ofList (char :: run))].flatMap _) ++ _ = _
      rw [List.flatMap_singleton, Piece.render, String.toList_ofList]
      rfl

/-- Of a balanced text nothing is lost: what is read of it is rendered as it was written, behind the
literal text that has been read before. -/
theorem rendered_scan {source : List Char} (balanced : IsBalanced source) (run : List Char) :
    rendered (scan (.inLiteral run) source) = run ++ source := by
  induction balanced generalizing run with
  | nil => exact (congrArg rendered (List.append_nil _).symm).trans (rendered_literalRun run [])
  | plain here _ ih =>
      rw [scan_inLiteral_cons run _ _ here, ih, List.append_assoc, List.singleton_append]
  | field here _ ih =>
      rw [scan, scan_append scan_inField_cons here, List.nil_append, scan, scan_afterField,
        rendered_literalRun, rendered_field, String.toList_ofList, ih, List.nil_append]

theorem render_compile_of_isBalanced {source : String} (balanced : IsBalanced source.toList) :
    (compile source).render = source := by
  rw [← String.toList_inj, toList_render]
  exact rendered_scan balanced []

theorem isBalanced_render_compile (source : String) :
    IsBalanced (compile source).render.toList := by
  rw [toList_render]
  exact isBalanced_rendered (isRegular_compile source).plain

/-- A text is given back by rendering the format that it describes exactly if its braces are
balanced without nesting. The text that is rendered is balanced in any case, so that compiling and
rendering it again gives the same text. -/
theorem render_compile_eq_iff_isBalanced (source : String) :
    ((compile source).render = source ↔ IsBalanced source.toList) ∧
      IsBalanced (compile source).render.toList ∧
      (compile (compile source).render).render = (compile source).render := by
  have balanced := isBalanced_render_compile source
  refine ⟨⟨fun same => ?_, render_compile_of_isBalanced⟩, balanced,
    render_compile_of_isBalanced balanced⟩
  rwa [same] at balanced

/-- A stray brace is dropped; a field is closed by the next one, or by the end. -/
example : (compile "a\x7db\x7bH\x7bM2").render = "ab\x7bH\x7d\x7bM2\x7d" := rfl

end Format

end Duration

end XmlRecords
