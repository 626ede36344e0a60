import CodeTidy.Proofs.Generic.Format
import CodeTidy.Proofs.Json.Nesting
import CodeTidy.Proofs.Notebook.Cells

/-!
# `CodeTidy.Proofs.Notebook.Reading`: a notebook that was read can be written

A text is read as a notebook if it may be one and its JSON value is an object
with a list of cells. What is read has keys that stand once and values that
fit, so it can be written, with other cells too, and is read again. The
theorems:

* `parse?_eq_some_iff`: when a text is read as a notebook.
* `exists_parse?_iff`: when it can be said whether a text is a notebook.
* `readable_of_parse?`: what a notebook that was read can be relied on for.
* `Readable.parse_write`, `Readable.parse?_write`: a readable notebook reads
  back.
* `parse?_write_of_parse?`: a notebook that was read is read again as it was.
* `parse?_format`: the generic formatter keeps a notebook as it is.
-/

set_option autoImplicit false

namespace CodeTidy

open Json

/-! ### Texts that may be notebooks -/

/-- No atom is an object. -/
theorem Json.atom_ne_object {t rest : Text} {ms : List (Text × Json)} :
    atom t ≠ .ok (.object ms, rest) := by
  intro h
  have hnumber {negative : Bool} {r : Text} : number negative r ≠ .ok (.object ms, rest) := by
    intro h
    rcases number_kind h with ⟨n, hn, -⟩ | ⟨x, hx, -⟩
    · cases hn
    · cases hx
  rcases atom_cases h with ⟨word, hword, -⟩ | ⟨r, -, h⟩ | h
  · simp [namedValues] at hword
  · exact hnumber h
  · exact hnumber h

/-- An object is written from a brace on. -/
theorem Json.startsWith_of_parse {t : Text} {ms : List (Text × Json)}
    (h : parse t = .ok (.object ms)) : Text.startsWith (Text.trimStart t) "\x7b" = true := by
  obtain ⟨rest, hread, -⟩ := parse_eq_ok_iff.mp h
  obtain ⟨s, hs, ht⟩ := exists_skipSpace t
  -- Of the readings only those of objects make one.
  have hbrace : ∃ r, skipSpace t = '\x7b' :: r := by
    generalize skipSpace t = t' at hread
    generalize hpart : Part.value (.object ms) = part at hread
    cases hread with
    | atom hatom =>
      cases hpart
      exact absurd hatom atom_ne_object
    | emptyObject => exact ⟨_, rfl⟩
    | object => exact ⟨_, rfl⟩
    | _ => cases hpart
  obtain ⟨r, hr⟩ := hbrace
  have hblank : ∀ c ∈ s, Text.isBlank c = true := by
    intro c hc
    rcases isSpace_cases (List.all_eq_true.mp hs c hc) with rfl | rfl | rfl | rfl <;> rfl
  rw [ht, hr, Text.trimStart, List.dropWhile_append_of_pos hblank]
  rfl

namespace Notebook

/-- What a notebook that was read can be relied on for: it can be written, and read again. -/
structure Readable (nb : Notebook) : Prop where
  hasCode : nb.cells.any Cell.isCode = true
  fits : ∀ c ∈ nb.cells, c.Fits
  nodup : (nb.members.map Prod.fst).Nodup
  members : ∀ m ∈ nb.members, Json.Fits (maxNesting - 1) m.2

/-- When a text is read as a notebook. -/
theorem parse?_eq_some_iff {t : Text} {nb : Notebook} :
    parse? t = .ok (some nb) ↔
      isLikely t = true ∧ ∃ v, Json.parse t = .ok v ∧ ofJson? v = some nb := by
  rw [parse?]
  cases isLikely t with
  | false => simp
  | true =>
    rw [if_pos rfl, Json.parse?]
    cases Json.parse t with
    | ok v => simp [bind, Except.bind, pure, Except.pure]
    | error e => cases e <;> simp [bind, Except.bind, pure, Except.pure]

/-- A text that may be a notebook has a container in it for which there is no room. Nothing can be
said about it then. -/
def NestsTooDeeply (t : Text) : Prop :=
  isLikely t = true ∧ ∃ c, Exceeds maxNesting (skipSpace t) .value c

/-- It can be said whether a text is a notebook, unless it is nested too deeply. -/
theorem exists_parse?_iff {t : Text} : (∃ nb, parse? t = .ok nb) ↔ ¬NestsTooDeeply t := by
  rw [parse?, NestsTooDeeply]
  cases isLikely t with
  | false => simp
  | true =>
    simp only [← parse_eq_tooDeep_iff, if_true, Json.parse?]
    cases Json.parse t with
    | ok v => simp [bind, Except.bind, pure, Except.pure]
    | error e =>
      cases e with
      | malformed => simp [bind, Except.bind, pure, Except.pure]
      | tooManyDigits digits => simp [bind, Except.bind, pure, Except.pure]
      | tooDeep e =>
        -- Of the three failures only this one is passed on.
        obtain ⟨c⟩ := e
        simp [bind, Except.bind]

/-- A notebook is an object with a list of cells, one of them with code. -/
theorem ofJson?_eq_some {v : Json} {nb : Notebook} (h : ofJson? v = some nb) :
    v = .object nb.members ∧ nb.members.lookup "cells".toList = some (.array nb.cells) ∧
      nb.cells.any Cell.isCode = true := by
  rw [ofJson?.eq_def] at h
  split at h
  · split at h
    · rename_i ms _ cells hcells
      split at h
      · rename_i hcode
        cases h
        exact ⟨rfl, hcells, hcode⟩
      · cases h
    · cases h
  · cases h

/-- An object with a list of cells, one of them with code, is a notebook. -/
theorem ofJson?_object {ms : List (Text × Json)} {cells : List Cell}
    (h : ms.lookup "cells".toList = some (.array cells)) (hcode : cells.any Cell.isCode = true) :
    ofJson? (.object ms) = some ⟨ms, cells⟩ := by
  have hmember : member? ms "cells" = some (.array cells) := h
  rw [ofJson?, hmember]
  exact if_pos hcode

/-- A notebook that was read is readable. -/
theorem readable_of_parse? {t : Text} {nb : Notebook} (h : parse? t = .ok (some nb)) :
    nb.Readable := by
  obtain ⟨-, v, hparse, hv⟩ := parse?_eq_some_iff.mp h
  obtain ⟨rfl, hlookup, hcode⟩ := ofJson?_eq_some hv
  obtain ⟨-, hnodup, hmembers⟩ := fits_of_parse hparse
  rw [membersFit_iff] at hmembers
  obtain ⟨ms, ms', hsplit, -⟩ := List.lookup_eq_some_iff.mp hlookup
  have hcells := hmembers ("cells".toList, .array nb.cells) (by rw [hsplit]; simp)
  exact ⟨hcode, allFit_iff.mp hcells.2, hnodup, hmembers⟩

/-- What a readable notebook with other cells writes is a JSON text of it. -/
theorem Readable.parse_write {nb : Notebook} (h : nb.Readable) {cells : List Cell}
    (hfits : ∀ c ∈ cells, c.Fits) :
    Json.parse (nb.withCells cells).write = .ok (nb.withCells cells).toJson := by
  have hmembers : ∀ m ∈ putMember "cells" (.array cells) nb.members,
      Json.Fits (maxNesting - 1) m.2 := by
    intro m hm
    rcases mem_putMember hm with rfl | hm
    · exact ⟨by decide, allFit_iff.mpr hfits⟩
    · exact h.members m hm
  have hfit : Json.Fits maxNesting (nb.withCells cells).toJson :=
    ⟨by decide, nodup_putMember _ _ h.nodup, membersFit_iff.mpr hmembers⟩
  exact Json.parse_write JsonStyle.notebook hfit rfl

/-- A readable notebook is read again after it was written, with other cells too. -/
theorem Readable.parse?_write {nb : Notebook} (h : nb.Readable) {cells : List Cell}
    (hfits : ∀ c ∈ cells, c.Fits) (hcode : cells.any Cell.isCode = true) :
    parse? (nb.withCells cells).write =
      .ok (some ⟨putMember "cells" (.array cells) nb.members, cells⟩) := by
  have hparse := h.parse_write hfits
  have hkey : "cells".toList ∈ (putMember "cells" (.array cells) nb.members).map Prod.fst := by
    rw [keys_putMember]
    split
    · assumption
    · simp
  have hheld : Text.holds (nb.withCells cells).write "\"cells\"" = true :=
    Text.holds_iff.mpr ((Json.infix_write JsonStyle.notebook hkey).trans
      (List.prefix_append _ _).isInfix)
  refine parse?_eq_some_iff.mpr ⟨?_, _, hparse, ?_⟩
  · rw [isLikely, startsWith_of_parse hparse, hheld]
    rfl
  · refine ofJson?_object ?_ hcode
    rw [lookup_putMember, if_pos rfl]
    rfl

/-- The cells of a notebook that was read are its member of that name. -/
theorem putMember_cells_of_parse? {t : Text} {nb : Notebook} (h : parse? t = .ok (some nb)) :
    putMember "cells" (.array nb.cells) nb.members = nb.members := by
  obtain ⟨-, v, -, hv⟩ := parse?_eq_some_iff.mp h
  exact putMember_eq_self (ofJson?_eq_some hv).2.1

/-- A notebook that was read is written as a text of the same JSON value, member by member and in
the same order, and it is read from that text again. -/
theorem parse?_write_of_parse? {t : Text} {nb : Notebook} (h : parse? t = .ok (some nb)) :
    Json.parse nb.write = Json.parse t ∧ parse? nb.write = .ok (some nb) := by
  have hnb := readable_of_parse? h
  have hmembers := putMember_cells_of_parse? h
  obtain ⟨-, v, hparse, hv⟩ := parse?_eq_some_iff.mp h
  obtain ⟨rfl, -, -⟩ := ofJson?_eq_some hv
  have hsame : nb.withCells nb.cells = nb := rfl
  constructor
  · have hwrite := hnb.parse_write hnb.fits
    rw [hsame, toJson, hmembers] at hwrite
    rw [hwrite, hparse]
  · have hread := hnb.parse?_write hnb.fits hnb.hasCode
    rwa [hsame, hmembers] at hread

/-- A notebook with a key that stands twice, empty containers, a control character, a number that
no double reaches and one that is none. -/
def tangledNotebook : Text :=
  "\x7b\"a\": 1, \"cells\": [\x7b\"cell_type\": \"code\", \"source\": [\"x\\u0001\"]\x7d, []],
    \"a\": [\x7b\x7d, 1e400, NaN]\x7d"

/-- The theorem at a notebook in which a key stands twice: it is read back with the key at its
first place. -/
theorem parse?_write_tangledNotebook :
    ∃ nb, parse? tangledNotebook = .ok (some nb) ∧
      nb.members.map Prod.fst = ["a".toList, "cells".toList] ∧
      parse? nb.write = .ok (some nb) := by
  have hkeys : (parse? tangledNotebook).toOption.join.map (fun nb => nb.members.map Prod.fst) =
      some ["a".toList, "cells".toList] := by
    decide +kernel
  cases hread : parse? tangledNotebook with
  | error e =>
    rw [hread] at hkeys
    cases hkeys
  | ok found =>
    cases found with
    | none =>
      rw [hread] at hkeys
      cases hkeys
    | some nb =>
      rw [hread] at hkeys
      exact ⟨nb, rfl, Option.some.inj hkeys, (parse?_write_of_parse? hread).2⟩

/-- The generic formatter keeps a notebook as it is. -/
theorem parse?_format {t : Text} {nb : Notebook} (h : parse? t = .ok (some nb)) :
    parse? (Generic.format t) = .ok (some nb) := by
  obtain ⟨hlikely, v, hparse, hv⟩ := parse?_eq_some_iff.mp h
  obtain ⟨rfl, -⟩ := ofJson?_eq_some hv
  have hrelays := Generic.relays_format (lexed_of_parse hparse)
  have hformat := parse_relays hrelays hparse
  refine parse?_eq_some_iff.mpr ⟨?_, _, hformat, hv⟩
  rw [isLikely, Bool.and_eq_true] at hlikely ⊢
  refine ⟨startsWith_of_parse hformat, Text.holds_iff.mpr ?_⟩
  have hword : isQuotable "cells" = true := rfl
  exact infix_relays hword hrelays (Text.holds_iff.mp hlikely.2)

end Notebook

end CodeTidy
