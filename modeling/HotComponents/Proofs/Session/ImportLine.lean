import HotComponents.Proofs.ModuleId.Resolved
import HotComponents.Proofs.Text.Script
import HotComponents.Session.Serve

/-!
# The import of a stylesheet

The main module of a component with a stylesheet is the compiled code and a line that imports the
stylesheet. The identifier stands in that line as a quoted literal, which a script reads as the very
identifier, whatever signs the file's path holds, with one exception: where a NUL of the path stands
before a digit and the path is written as it is, the line is no import at all.

* `nulBeforeDigit_styleId`: the identifiers that hold a NUL before a digit;
* `stylesheet_is_imported_unless_nul_stands_before_digit`: what the line means.
-/

namespace HotComponents

open ModuleId Text Text.Script

/-- The identifier of a stylesheet holds a NUL before a digit if the file as it is written does. -/
theorem nulBeforeDigit_styleId (r : Request) :
    nulBeforeDigit (styleId r).toList = nulBeforeDigit (writeFile r.file).toList := by
  have hquery : nulBeforeDigit Query.style.text.toList = false := by decide
  rw [toList_styleId, nulBeforeDigit_append (by decide) (by decide), hquery, Bool.or_false]

/-- A path that is escaped is written without NUL, any other as it is. -/
theorem nulBeforeDigit_writeFile {file : FilePath} (habsolute : file.isAbsolute) :
    nulBeforeDigit (writeFile file).toList ↔ nulBeforeDigit file.text.toList ∧
      '?' ∉ file.text.toList ∧ '%' ∉ file.text.toList := by
  obtain ⟨rest, htext, ⟨c, hc, hsign⟩, hwritten⟩ | ⟨hquestion, hpercent, hwritten⟩ :=
    writeFile_cases habsolute
  · have hnoNul : '\x00' ∉ percentEncode mustEscape rest :=
      notMem_percentEncode (by decide) (by decide) (by decide) rest
    have hplain : nulBeforeDigit (writeFile file).toList = false := by
      apply nulBeforeDigit_of_notMem
      rw [hwritten, String.toList_ofList, List.mem_append, not_or]
      exact ⟨by decide, hnoNul⟩
    rw [hplain]
    refine ⟨nofun, ?_⟩
    rintro ⟨-, hquestion, hpercent⟩
    have hhere : c ∈ file.text.toList := htext ▸ List.mem_cons_of_mem _ hc
    rcases hsign with rfl | rfl
    · exact absurd hhere hquestion
    · exact absurd hhere hpercent
  · rw [hwritten]
    exact ⟨fun hnul => ⟨hnul, hquestion, hpercent⟩, fun h => h.1⟩

/-- The main module of a component with a stylesheet, if that is a module of its own, is the compiled
code and a line that imports a literal. The literal means the identifier of the stylesheet, code unit
by code unit, exactly if the identifier holds no NUL before a digit, and is no literal otherwise. For
an absolute file that is so exactly if its path holds a NUL before a digit and no sign that is
escaped. -/
theorem stylesheet_is_imported_unless_nul_stands_before_digit {o : Options} {r : Request}
    {record : Record} (hcss : record.hasCss) (hemitted : o.emitCss) :
    let literal := quoted (styleId r)
    (mainCode o r record).text = record.js.text ++ "\nimport " ++ literal ++ ";\n" ∧
    (value? literal.toList = some (textUnits (styleId r).toList) ↔
      nulBeforeDigit (styleId r).toList = false) ∧
    (value? literal.toList = none ↔ nulBeforeDigit (styleId r).toList) ∧
    (r.file.isAbsolute → (nulBeforeDigit (styleId r).toList ↔
      nulBeforeDigit r.file.text.toList ∧
        '?' ∉ r.file.text.toList ∧ '%' ∉ r.file.text.toList)) := by
  intro literal
  have hmeaning : value? literal.toList = if nulBeforeDigit (styleId r).toList then none
      else some (textUnits (styleId r).toList) := by
    rw [show literal.toList = Text.literal (styleId r).toList from String.toList_ofList]
    exact value?_literal _
  refine ⟨?_, ?_, ?_, ?_⟩
  · simp [mainCode, hcss, hemitted, importLine, literal, String.append_assoc]
  · rw [hmeaning]
    cases nulBeforeDigit (styleId r).toList <;> simp
  · rw [hmeaning]
    cases nulBeforeDigit (styleId r).toList <;> simp
  · intro habsolute
    rw [nulBeforeDigit_styleId]
    exact nulBeforeDigit_writeFile habsolute

/-- A file name with a NUL before a digit: the literal in the line holds the octal number `\01` and is
none in strict code. One with a quote, a backslash, the end of a line and a NUL before the dot is
named exactly. -/
theorem stylesheet_is_imported_unless_nul_stands_before_digit_octal :
    let o := Options.atRoot ⟨"/app"⟩
    let octal := requestFor o ⟨"/app/A\x001.svelte"⟩ .dom
    let marked := requestFor o ⟨"/app/\"\\\n\x00.svelte"⟩ .dom
    let record : Record := ⟨octal.file, .dom, .of "<p>ok</p>" .dom, ⟨"one", none⟩,
      some ⟨"p\x7b\x7d", none⟩, [], []⟩
    parse o "/app/A\x001.svelte" .dom = some octal ∧
    parse o "/app/\"\\\n\x00.svelte" .dom = some marked ∧
    (mainCode o octal record).text =
      "one\nimport \"/app/A\\01.svelte?svelte&type=style&lang.css\";\n" ∧
    value? (quoted (styleId octal)).toList = none ∧
    value? (quoted (styleId marked)).toList = some (textUnits (styleId marked).toList) := by
  intro o octal marked record
  have hoctal : parse o "/app/A\x001.svelte" .dom = some octal := by
    have hwhole : splitId "/app/A\x001.svelte" = ("/app/A\x001.svelte", none) := by decide
    refine parse_eq_some_iff.2 (read_eq_ok_iff.2 ?_)
    rw [hwhole]
    exact ⟨by decide, rfl, rfl, by decide, by decide⟩
  have hmarked : parse o "/app/\"\\\n\x00.svelte" .dom = some marked := by
    have hwhole : splitId "/app/\"\\\n\x00.svelte" = ("/app/\"\\\n\x00.svelte", none) := by
      decide
    refine parse_eq_some_iff.2 (read_eq_ok_iff.2 ?_)
    rw [hwhole]
    exact ⟨by decide, rfl, rfl, by decide, by decide⟩
  have hcss : record.hasCss := rfl
  have hemitted : o.emitCss := rfl
  obtain ⟨htext, -, hrefused, hpath⟩ :=
    stylesheet_is_imported_unless_nul_stands_before_digit (r := octal) hcss hemitted
  obtain ⟨-, hnamed, -, -⟩ :=
    stylesheet_is_imported_unless_nul_stands_before_digit (r := marked) hcss hemitted
  have hnul : nulBeforeDigit (styleId octal).toList := (hpath (by decide)).2 (by decide)
  refine ⟨hoctal, hmarked, htext.trans ?_, hrefused.2 hnul, hnamed.2 ?_⟩
  · decide
  · rw [nulBeforeDigit_styleId]
    decide

end HotComponents
