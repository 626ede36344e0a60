import CodeTidy.Proofs.Json.Reads

/-!
# `CodeTidy.Proofs.Json.Fits`: values that are read as they were written

Whole numbers must not be too long, other numbers canonical, the keys of an
object distinct and containers not nested too deeply. `Fits` says so. The
theorems:

* `fits_of_parse`: what is parsed fits.
* `parse_write`: what fits is parsed as it was written, in every style.
-/

set_option autoImplicit false

namespace CodeTidy.Json

mutual

/-- Whether a value can be written and read again where so many containers may be opened. -/
def Fits : (room : Nat) → Json → Prop
  | _, .int n => (Text.ofNat n.natAbs).length ≤ maxNumberDigits
  | _, .float x => x.IsCanonical
  | room, .array vs => 0 < room ∧ AllFit (room - 1) vs
  | room, .object ms => 0 < room ∧ (ms.map Prod.fst).Nodup ∧ MembersFit (room - 1) ms
  | _, _ => True

/-- Whether all of some values fit. -/
def AllFit : (room : Nat) → List Json → Prop
  | _, [] => True
  | room, v :: vs => Fits room v ∧ AllFit room vs

/-- Whether the values of some members fit. -/
def MembersFit : (room : Nat) → List (Text × Json) → Prop
  | _, [] => True
  | room, (_, v) :: ms => Fits room v ∧ MembersFit room ms

end

/-- All values fit exactly if each of them does. -/
theorem allFit_iff {room : Nat} {vs : List Json} : AllFit room vs ↔ ∀ v ∈ vs, Fits room v := by
  induction vs with
  | nil => simp [AllFit]
  | cons v vs ih => rw [AllFit, ih, List.forall_mem_cons]

/-- All members fit exactly if the value of each does. -/
theorem membersFit_iff {room : Nat} {ms : List (Text × Json)} :
    MembersFit room ms ↔ ∀ m ∈ ms, Fits room m.2 := by
  induction ms with
  | nil => simp [MembersFit]
  | cons m ms ih =>
    obtain ⟨k, v⟩ := m
    rw [MembersFit, ih, List.forall_mem_cons]

/-! ### Members -/

/-- A member is the one that was put in, or was there before. -/
theorem mem_putMember {key : Text} {value : Json} {ms : List (Text × Json)} {m : Text × Json}
    (h : m ∈ putMember key value ms) : m = (key, value) ∨ m ∈ ms := by
  induction ms with
  | nil => exact .inl (List.mem_singleton.mp h)
  | cons p ms ih =>
    obtain ⟨k, v⟩ := p
    rw [putMember] at h
    split at h
    · rename_i hk
      rcases List.mem_cons.mp h with rfl | hm
      · exact .inl (by rw [hk])
      · exact .inr (List.mem_cons_of_mem _ hm)
    · rcases List.mem_cons.mp h with rfl | hm
      · exact .inr List.mem_cons_self
      · exact (ih hm).imp_right (List.mem_cons_of_mem _)

/-- A key that was there keeps its place; a new one comes last. -/
theorem keys_putMember (key : Text) (value : Json) (ms : List (Text × Json)) :
    (putMember key value ms).map Prod.fst =
      if key ∈ ms.map Prod.fst then ms.map Prod.fst else ms.map Prod.fst ++ [key] := by
  induction ms with
  | nil => rfl
  | cons p ms ih =>
    obtain ⟨k, v⟩ := p
    rw [putMember]
    by_cases hk : k = key
    · rw [if_pos hk, List.map_cons, List.map_cons, if_pos (by rw [hk]; exact List.mem_cons_self)]
    · rw [if_neg hk, List.map_cons, ih, List.map_cons]
      by_cases hmem : key ∈ ms.map Prod.fst
      · rw [if_pos hmem, if_pos (List.mem_cons_of_mem _ hmem)]
      · rw [if_neg hmem, if_neg]
        · rfl
        · rw [List.mem_cons]
          rintro (rfl | h)
          · exact hk rfl
          · exact hmem h

/-- No key gets twice among the members. -/
theorem nodup_putMember (key : Text) (value : Json) {ms : List (Text × Json)}
    (h : (ms.map Prod.fst).Nodup) : ((putMember key value ms).map Prod.fst).Nodup := by
  rw [keys_putMember]
  split
  · exact h
  · rename_i hmem
    exact List.Nodup.append h (List.nodup_singleton _) (by simpa using hmem)

/-- A member with a new key comes last. -/
theorem putMember_of_not_mem {key : Text} (value : Json) {ms : List (Text × Json)}
    (h : key ∉ ms.map Prod.fst) : putMember key value ms = ms ++ [(key, value)] := by
  induction ms with
  | nil => rfl
  | cons p ms ih =>
    obtain ⟨k, v⟩ := p
    rw [List.map_cons, List.mem_cons, not_or] at h
    rw [putMember, if_neg (Ne.symm h.1), ih h.2]
    rfl

/-- The members with one more of them put in. -/
def putPair (seen : List (Text × Json)) (m : Text × Json) : List (Text × Json) :=
  putMember m.1 m.2 seen

/-- Each key of united members stands once, and each member is one of the members. -/
theorem uniteMembers_spec (ms : List (Text × Json)) :
    ((uniteMembers ms).map Prod.fst).Nodup ∧ ∀ m ∈ uniteMembers ms, m ∈ ms := by
  have hfold : ∀ seen : List (Text × Json), (seen.map Prod.fst).Nodup →
      ((ms.foldl putPair seen).map Prod.fst).Nodup ∧
      ∀ m ∈ ms.foldl putPair seen, m ∈ seen ∨ m ∈ ms := by
    induction ms with
    | nil => exact fun seen h => ⟨h, fun m hm => .inl hm⟩
    | cons p ms ih =>
      intro seen h
      obtain ⟨hnodup, hmem⟩ := ih (putPair seen p) (nodup_putMember p.1 p.2 h)
      refine ⟨hnodup, fun m hm => ?_⟩
      rcases hmem m hm with hput | hrest
      · rcases mem_putMember hput with rfl | hseen
        · exact .inr List.mem_cons_self
        · exact .inl hseen
      · exact .inr (List.mem_cons_of_mem _ hrest)
  obtain ⟨hnodup, hmem⟩ := hfold [] List.nodup_nil
  exact ⟨hnodup, fun m hm => (hmem m hm).resolve_left List.not_mem_nil⟩

/-- Members with distinct keys are united already. -/
theorem uniteMembers_eq_self {ms : List (Text × Json)} (h : (ms.map Prod.fst).Nodup) :
    uniteMembers ms = ms := by
  have hfold : ∀ seen : List (Text × Json), ((seen ++ ms).map Prod.fst).Nodup →
      ms.foldl putPair seen = seen ++ ms := by
    clear h
    induction ms with
    | nil => exact fun seen _ => (List.append_nil seen).symm
    | cons p ms ih =>
      intro seen hnodup
      have hnew : p.1 ∉ seen.map Prod.fst := by
        rw [List.map_append, List.nodup_append] at hnodup
        intro hk
        exact hnodup.2.2 p.1 hk p.1 List.mem_cons_self rfl
      rw [List.foldl_cons, putPair, putMember_of_not_mem p.2 hnew, ih, List.append_assoc]
      · rfl
      · rwa [List.append_assoc]
  exact hfold [] h

/-! ### What is parsed fits -/

/-- Whether a part fits. The keys of members are not united yet. -/
def PartFits (room : Nat) : Part → Prop
  | .value v => Fits room v
  | .items vs => AllFit room vs
  | .members ms => MembersFit room ms

/-- A value that is no container always fits. -/
theorem fits_of_atom {t rest : Text} {v : Json} (room : Nat) (h : atom t = .ok (v, rest)) :
    Fits room v := by
  have hnumber {negative : Bool} {r : Text} (h : number negative r = .ok (v, rest)) :
      Fits room v := by
    rcases number_kind h with ⟨n, rfl, hn⟩ | ⟨x, rfl, hx⟩
    · exact hn
    · exact hx
  rcases atom_cases h with ⟨word, hword, -⟩ | ⟨r, -, h⟩ | h
  · simp only [namedValues, List.mem_cons, List.not_mem_nil, or_false, Prod.mk.injEq] at hword
    rcases hword with ⟨-, rfl⟩ | ⟨-, rfl⟩ | ⟨-, rfl⟩ | ⟨-, rfl⟩ | ⟨-, rfl⟩ | ⟨-, rfl⟩ <;> trivial
  · exact hnumber h
  · exact hnumber h

/-- What has been read can be written and read again with the same room: the reader has opened just
its containers. -/
theorem fits_of_reads {room : Nat} {t rest : Text} {part : Part} (h : Reads room t part rest) :
    PartFits room part := by
  induction h with
  | atom h => exact fits_of_atom _ h
  | string => trivial
  | emptyArray => exact ⟨Nat.succ_pos _, trivial⟩
  | array _ ih => exact ⟨Nat.succ_pos _, ih⟩
  | emptyObject => exact ⟨Nat.succ_pos _, List.nodup_nil, trivial⟩
  | @object _ _ _ ms _ ih =>
    obtain ⟨hnodup, hmem⟩ := uniteMembers_spec ms
    exact ⟨Nat.succ_pos _, hnodup, membersFit_iff.mpr fun m hm =>
      membersFit_iff.mp ih m (hmem m hm)⟩
  | lastItem _ _ ih => exact ⟨ih, trivial⟩
  | nextItem _ _ _ ih ihRest => exact ⟨ih, ihRest⟩
  | lastMember _ _ _ _ ih => exact ⟨ih, trivial⟩
  | nextMember _ _ _ _ _ ih ihRest => exact ⟨ih, ihRest⟩

/-- What is parsed fits. -/
theorem fits_of_parse {t : Text} {v : Json} (h : parse t = .ok v) : Fits maxNesting v := by
  obtain ⟨rest, hread, -⟩ := parse_eq_ok_iff.mp h
  exact fits_of_reads hread

/-! ### What fits is read as it was written -/

/-- Between the values of a container stands white space only. -/
theorem isSpace_lineBreak (style : JsonStyle) (level : Nat) :
    (style.lineBreak level).all isSpace = true := by
  rw [JsonStyle.lineBreak]
  cases style.indent with
  | none => rfl
  | some width =>
    dsimp only
    rw [List.all_cons, List.all_replicate]
    split <;> rfl

/-- The reader passes over the white space between values. -/
theorem skipSpace_lineBreak (style : JsonStyle) (level : Nat) (t : Text) :
    skipSpace (style.lineBreak level ++ t) = skipSpace t :=
  skipSpace_append (isSpace_lineBreak style level) t

/-- The key of a member, the mark behind it and what follows are read as such. -/
theorem exists_key (style : JsonStyle) (k t : Text) : ∃ r t₁ t₂,
    writeString style.ascii k ++ style.colon ++ t = '"' :: r ∧ string? r = some (k, t₁) ∧
      skipSpace t₁ = ':' :: t₂ ∧ skipSpace t₂ = skipSpace t := by
  obtain ⟨r, heq, hread⟩ := string?_writeString style.ascii k (style.colon ++ t)
  have hcolon : ∃ t₂, style.colon ++ t = ':' :: t₂ ∧ skipSpace t₂ = skipSpace t := by
    rw [JsonStyle.colon]
    cases style.indent with
    | none => exact ⟨t, rfl, rfl⟩
    | some width => exact ⟨' ' :: t, rfl, rfl⟩
  obtain ⟨t₂, hcolon, hskip⟩ := hcolon
  exact ⟨r, _, t₂, by rw [List.append_assoc, heq], hread, by rw [hcolon]; rfl, hskip⟩

section

variable (style : JsonStyle)

/-- In front of the items that follow the first one, a value may end. -/
theorem ends_writeItems (level : Nat) (vs : List Json) {close : Text} (h : ends close = true) :
    ends (writeItems style level vs close) = true := by
  cases vs with
  | nil => exact h
  | cons v vs => rfl

/-- In front of the members that follow the first one, a value may end. -/
theorem ends_writeMembers (level : Nat) (ms : List (Text × Json)) {close : Text}
    (h : ends close = true) : ends (writeMembers style level ms close) = true := by
  cases ms with
  | nil => exact h
  | cons m ms => rfl

mutual

/-- What fits is read in front of anything that ends it. -/
theorem reads_writeBefore (level : Nat) : ∀ (v : Json) {room : Nat} {rest : Text},
    Fits room v → ends rest = true →
      Reads room (writeBefore style level v rest) (.value v) rest
  | .null, _, _, _, hends => .atom rfl hends
  | .bool true, _, _, _, hends => .atom rfl hends
  | .bool false, _, _, _, hends => .atom rfl hends
  | .int n, _, _, hfits, hends => .atom (atom_ofInt (endsNumber_of_ends hends) hfits) hends
  | .float x, _, _, hfits, hends => .atom (atom_writeFloat hfits (endsNumber_of_ends hends)) hends
  | .string s, _, rest, _, _ => by
    obtain ⟨r, heq, hread⟩ := string?_writeString style.ascii s rest
    rw [writeBefore, heq]
    exact .string hread
  | .array [], room + 1, _, _, _ => .emptyArray rfl
  | .array (v :: vs), room + 1, rest, hfits, _ => by
    obtain ⟨-, hv, hvs⟩ := hfits
    have hclose : skipSpace (style.lineBreak level ++ "]".toList ++ rest) = ']' :: rest := by
      rw [List.append_assoc, skipSpace_lineBreak]
      rfl
    have hitems := reads_writeItems (level + 1) vs hvs hclose
      (reads_writeBefore (level + 1) v hv
        (ends_writeItems style (level + 1) vs (ends_of_skipSpace hclose rfl)))
    show Reads _ ('[' :: (style.lineBreak (level + 1) ++ _)) _ _
    refine .array ?_
    rwa [skipSpace_lineBreak, skipSpace_of_reads hitems]
  | .object [], room + 1, _, _, _ => .emptyObject rfl
  | .object ((k, v) :: ms), room + 1, rest, hfits, _ => by
    obtain ⟨-, hnodup, hv, hms⟩ := hfits
    have hclose : skipSpace (style.lineBreak level ++ "\x7d".toList ++ rest) = '\x7d' :: rest := by
      rw [List.append_assoc, skipSpace_lineBreak]
      rfl
    -- The value of the first member ends before the other members, or before the brace.
    have hvalue := reads_writeBefore (level + 1) v hv
      (ends_writeMembers style (level + 1) ms (ends_of_skipSpace hclose rfl))
    obtain ⟨r, t₁, t₂, heq, hkey, hcolon, hskip⟩ := exists_key style k
      (writeBefore style (level + 1) v (writeMembers style (level + 1) ms
        (style.lineBreak level ++ "\x7d".toList ++ rest)))
    have hmembers := reads_writeMembers (level + 1) ms hms hclose hkey hcolon
      (by rwa [hskip, skipSpace_of_reads hvalue])
    show Reads _ ('\x7b' :: (style.lineBreak (level + 1) ++ writeString style.ascii k ++
      style.colon ++ _)) _ _
    rw [← uniteMembers_eq_self hnodup]
    refine .object ?_
    rwa [List.append_assoc, List.append_assoc, skipSpace_lineBreak, ← List.append_assoc, heq,
      skipSpace_of_reads hmembers]

/-- Items are read behind the first one. -/
theorem reads_writeItems (level : Nat) : ∀ (vs : List Json) {room : Nat} {t close rest : Text}
    {v : Json}, AllFit room vs → skipSpace close = ']' :: rest →
      Reads room t (.value v) (writeItems style level vs close) →
        Reads room t (.items (v :: vs)) rest
  | [], _, _, _, _, _, _, hclose, hread => .lastItem hread hclose
  | w :: vs, _, _, close, _, _, hfits, hclose, hread => by
    have hitems := reads_writeItems level vs hfits.2 hclose (reads_writeBefore level w hfits.1
      (ends_writeItems style level vs (ends_of_skipSpace hclose rfl)))
    have hcomma : skipSpace (writeItems style level (w :: vs) close) =
        ',' :: (style.lineBreak level ++ writeBefore style level w
          (writeItems style level vs close)) := rfl
    refine .nextItem hread hcomma ?_
    rwa [skipSpace_lineBreak, skipSpace_of_reads hitems]

/-- Members are read behind the first one. -/
theorem reads_writeMembers (level : Nat) : ∀ (ms : List (Text × Json)) {room : Nat}
    {r k t₁ t₂ close rest : Text} {v : Json}, MembersFit room ms →
      skipSpace close = '\x7d' :: rest → string? r = some (k, t₁) → skipSpace t₁ = ':' :: t₂ →
      Reads room (skipSpace t₂) (.value v) (writeMembers style level ms close) →
      Reads room ('"' :: r) (.members ((k, v) :: ms)) rest
  | [], _, _, _, _, _, _, _, _, _, hclose, hkey, hcolon, hread =>
    .lastMember hkey hcolon hread hclose
  | (k', w) :: ms, _, _, _, _, _, close, _, _, hfits, hclose, hkey, hcolon, hread => by
    have hvalue := reads_writeBefore level w hfits.1
      (ends_writeMembers style level ms (ends_of_skipSpace hclose rfl))
    obtain ⟨r', t₁', t₂', heq, hkey', hcolon', hskip⟩ := exists_key style k'
      (writeBefore style level w (writeMembers style level ms close))
    have hmembers := reads_writeMembers level ms hfits.2 hclose hkey' hcolon'
      (by rwa [hskip, skipSpace_of_reads hvalue])
    -- Behind the value the writer puts a comma, a line break and the quote of the next key.
    have hcomma : skipSpace (writeMembers style level ((k', w) :: ms) close) =
        ',' :: (style.lineBreak level ++ '"' :: r') := by
      rw [writeMembers, ← heq]
      simp [skipSpace, isSpace]
    refine .nextMember hkey hcolon hread hcomma ?_
    rwa [skipSpace_lineBreak, skipSpace_of_reads hmembers]

end

end

mutual

/-- What is written in front of a text stays the same whatever comes behind. -/
theorem writeBefore_append (style : JsonStyle) (level : Nat) : ∀ (v : Json) (t u : Text),
    writeBefore style level v (t ++ u) = writeBefore style level v t ++ u
  | .null, t, u => by simp only [writeBefore, List.append_assoc]
  | .bool true, t, u => by simp only [writeBefore, List.append_assoc]
  | .bool false, t, u => by simp only [writeBefore, List.append_assoc]
  | .int n, t, u => by simp only [writeBefore, List.append_assoc]
  | .float x, t, u => by simp only [writeBefore, List.append_assoc]
  | .string s, t, u => by simp only [writeBefore, List.append_assoc]
  | .array [], t, u => by simp only [writeBefore, List.append_assoc]
  | .array (v :: vs), t, u => by
    simp only [writeBefore, ← writeBefore_append, ← writeItems_append, List.append_assoc]
  | .object [], t, u => by simp only [writeBefore, List.append_assoc]
  | .object ((k, v) :: ms), t, u => by
    simp only [writeBefore, ← writeBefore_append, ← writeMembers_append, List.append_assoc]

/-- The same for the items of an array. -/
theorem writeItems_append (style : JsonStyle) (level : Nat) : ∀ (vs : List Json) (t u : Text),
    writeItems style level vs (t ++ u) = writeItems style level vs t ++ u
  | [], t, u => rfl
  | v :: vs, t, u => by
    simp only [writeItems, writeItems_append, writeBefore_append, List.append_assoc]

/-- The same for the members of an object. -/
theorem writeMembers_append (style : JsonStyle) (level : Nat) :
    ∀ (ms : List (Text × Json)) (t u : Text),
      writeMembers style level ms (t ++ u) = writeMembers style level ms t ++ u
  | [], t, u => rfl
  | (k, v) :: ms, t, u => by
    simp only [writeMembers, writeMembers_append, writeBefore_append, List.append_assoc]

end

/-- The keys of members are written. -/
theorem infix_writeMembers (style : JsonStyle) (level : Nat) {ms : List (Text × Json)} {k : Text}
    (hk : k ∈ ms.map Prod.fst) (rest : Text) :
    writeString style.ascii k <:+: writeMembers style level ms rest := by
  induction ms with
  | nil => cases hk
  | cons m ms ih =>
    obtain ⟨k', v⟩ := m
    rw [writeMembers]
    rcases List.mem_cons.mp hk with rfl | hk
    · simp only [List.append_assoc]
      exact (List.prefix_append _ _).isInfix.trans (List.suffix_append_of_suffix
        (List.suffix_append _ _)).isInfix
    · have hbefore := writeBefore_append style level v []
        (writeMembers style level ms rest)
      rw [List.nil_append] at hbefore
      rw [hbefore, ← List.append_assoc]
      exact (ih hk).trans (List.suffix_append _ _).isInfix

/-- The keys of an object are written. -/
theorem infix_write (style : JsonStyle) {ms : List (Text × Json)} {k : Text}
    (hk : k ∈ ms.map Prod.fst) : writeString style.ascii k <:+: (Json.object ms).write style := by
  obtain _ | ⟨⟨k', v⟩, ms⟩ := ms
  · cases hk
  · rw [Json.write, writeBefore]
    rcases List.mem_cons.mp hk with rfl | hk
    · simp only [List.append_assoc]
      exact (List.prefix_append _ _).isInfix.trans (List.suffix_append_of_suffix
        (List.suffix_append _ _)).isInfix
    · generalize style.lineBreak 0 ++ "\x7d".toList ++ [] = close
      have hbefore := writeBefore_append style 1 v [] (writeMembers style 1 ms close)
      rw [List.nil_append] at hbefore
      rw [Nat.zero_add, hbefore, ← List.append_assoc]
      exact (infix_writeMembers style 1 hk close).trans (List.suffix_append _ _).isInfix

/-- What fits is parsed as it was written, with white space behind it. -/
theorem parse_write (style : JsonStyle) {v : Json} (h : Fits maxNesting v) {space : Text}
    (hspace : space.all isSpace = true) : parse (v.write style ++ space) = .ok v := by
  have hempty : skipSpace space = [] := by
    rw [← List.append_nil space, skipSpace_append hspace]
    rfl
  have hends : ends space = true := by
    rw [ends, hempty]
    rfl
  have hread := reads_writeBefore style 0 v h hends
  rw [write, ← writeBefore_append, List.nil_append, parse_eq_ok_iff]
  exact ⟨space, by rwa [skipSpace_of_reads hread], hempty⟩

end CodeTidy.Json
