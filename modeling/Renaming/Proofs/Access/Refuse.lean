import Renaming.Proofs.Access.Line

/-!
# The lines that are refused

Only a declaration can be refused: a class with fewer than three columns, a field or a method with
fewer than five, or a descriptor inside the packages that refers to a class which the dictionary does
not know (`Refused`). What the dictionary says of the names in the other columns does not matter
(`renameLine_refuses`).
-/

namespace Renaming.Access
variable {settings : Settings} {d d' : Dictionary} {number : Nat} {line : Text} {kind : Kind}
  {failure : Failure}

/-- The line is neither a header nor a comment, and the tag of the kind is its second column. -/
structure Declares (kind : Kind) (line : Text) : Prop where
  header : ¬ "accessWidener".toList <+: line
  comment : ¬ "#".toList <+: line
  tag : line.columns[1]? = some kind.tag

theorem ofLine_eq_declaration_iff : LineKind.ofLine line = .declaration kind ↔ Declares kind line := by
  have hheader : LineKind.headerMark.isPrefixOf line = true ↔ "accessWidener".toList <+: line :=
    List.isPrefixOf_iff_prefix
  have hcomment : line.head? = some '#' ↔ "#".toList <+: line := by
    cases line <;> simp [List.cons_prefix_cons, eq_comm]
  unfold LineKind.ofLine
  split
  · rename_i hmark
    refine ⟨(nomatch ·), fun h => ?_⟩
    exact absurd (hheader.1 hmark) h.header
  · rename_i hmark
    split
    · rename_i hhash
      refine ⟨(nomatch ·), fun h => ?_⟩
      exact absurd (hcomment.1 hhash) h.comment
    · rename_i hhash
      have htag : Declares kind line ↔ line.columns[1]? = some kind.tag :=
        ⟨Declares.tag, fun h => ⟨mt hheader.2 hmark, mt hcomment.2 hhash, h⟩⟩
      rw [htag]
      split
      · rename_i access tag rest hc
        rw [hc, List.getElem?_cons_succ, List.getElem?_cons_zero, Option.some.injEq,
          ← Kind.ofTag?_eq_some_iff]
        cases Kind.ofTag? tag <;> simp
      · rename_i hc
        refine ⟨(nomatch ·), fun h => ?_⟩
        match hcolumns : line.columns, h with
        | access :: tag :: rest, _ => exact absurd hcolumns (hc access tag rest)

/-- Why a line cannot be renamed, and the failure that tells it. -/
inductive Refused (settings : Settings) (d : Dictionary) (number : Nat) (line : Text) :
    Failure → Prop where
  | shortClass (h : Declares .klass line) (hlength : line.columns.length < 3) :
    Refused settings d number line
      ⟨[], .shortRow ⟨number, .entry .klass, 3, line.columns.length, line⟩⟩
  | shortMember {kind : Kind} (h : Declares kind line) (hk : kind ≠ .klass)
    (hlength : line.columns.length < 5) :
    Refused settings d number line
      ⟨[], .shortRow ⟨number, .entry kind, 5, line.columns.length, line⟩⟩
  | unknownClass {kind : Kind} {access tag owner member descriptor name : Text}
    {extra before after : List Text} (h : Declares kind line) (hk : kind ≠ .klass)
    (hc : line.columns = access :: tag :: owner :: member :: descriptor :: extra)
    (hinside : ∀ name ∈ Descriptor.references descriptor,
      ∃ package ∈ settings.packages, package <+: name)
    (hfirst : Descriptor.references descriptor = before ++ name :: after)
    (hbefore : ∀ earlier ∈ before, d.Knows earlier) (hname : ¬ d.Knows name) :
    Refused settings d number line
      ⟨[.descriptorOf kind owner member], .missingClass (some number) ⟨name, descriptor⟩⟩

theorem refused_iff : (renameLine settings d number line).result = .error failure ↔
    Refused settings d number line failure := by
  rw [renameLine_eq_error_iff]
  constructor
  · rintro ⟨kind, hkind, ⟨hlength, rfl⟩ | ⟨hk, access, tag, owner, member, descriptor, extra, missing,
      hc, hmissing, rfl⟩⟩
    · rw [ofLine_eq_declaration_iff] at hkind
      cases kind with
      | klass => exact .shortClass hkind hlength
      | field => exact .shortMember hkind (by decide) hlength
      | method => exact .shortMember hkind (by decide) hlength
    · obtain ⟨hinside, before, name, after, hfirst, hbefore, hname, rfl⟩ :=
        Descriptor.rename_eq_error_iff.1 hmissing
      rw [Descriptor.not_outside_iff] at hinside
      exact .unknownClass (ofLine_eq_declaration_iff.1 hkind) hk hc
        (fun name hmem => Settings.covers_iff.1 (hinside name hmem)) hfirst hbefore hname
  · intro h
    cases h with
    | shortClass h hlength =>
      exact ⟨.klass, ofLine_eq_declaration_iff.2 h, .inl ⟨hlength, rfl⟩⟩
    | shortMember h hk hlength =>
      rename_i kind
      refine ⟨kind, ofLine_eq_declaration_iff.2 h, .inl ?_⟩
      cases kind with
      | klass => exact absurd rfl hk
      | field => exact ⟨hlength, rfl⟩
      | method => exact ⟨hlength, rfl⟩
    | unknownClass h hk hc hinside hfirst hbefore hname =>
      refine ⟨_, ofLine_eq_declaration_iff.2 h, .inr ⟨hk, _, _, _, _, _, _, _, hc, ?_, rfl⟩⟩
      refine Descriptor.rename_eq_error_iff.2 ⟨Descriptor.not_outside_iff.2 fun name hmem => ?_,
        _, _, _, hfirst, hbefore, hname, rfl⟩
      exact Settings.covers_iff.2 (hinside name hmem)

/-- A line is refused in the same way by every dictionary that knows the same classes of its
descriptor. -/
theorem Refused.congr
    (hknows : ∀ descriptor, line.columns[4]? = some descriptor →
      ∀ name ∈ Descriptor.references descriptor, d'.Knows name ↔ d.Knows name)
    (h : Refused settings d number line failure) : Refused settings d' number line failure := by
  cases h with
  | shortClass h hlength => exact .shortClass h hlength
  | shortMember h hk hlength => exact .shortMember h hk hlength
  | unknownClass h hk hc hinside hfirst hbefore hname =>
    have hknows := hknows _ (by rw [hc]; rfl)
    rw [hfirst] at hknows
    refine .unknownClass h hk hc hinside hfirst (fun earlier hmem => ?_) ?_
    · exact (hknows earlier (List.mem_append_left _ hmem)).2 (hbefore earlier hmem)
    · exact mt (hknows _ (List.mem_append_right _ (List.mem_cons_self ..))).1 hname

/-- A line is refused exactly for the reasons of `Refused`, whichever way classes are substituted. Of
the dictionary only the classes of the descriptor matter, and of these only whether it knows them. -/
theorem renameLine_refuses (settings : Settings) (d : Dictionary) (number : Nat) (line : Text) :
    (∀ failure, (renameLine settings d number line).result = .error failure ↔
      Refused settings d number line failure) ∧
    ∀ d' : Dictionary,
      (∀ descriptor, line.columns[4]? = some descriptor →
        ∀ name ∈ Descriptor.references descriptor, d'.Knows name ↔ d.Knows name) →
      ∀ failure, (renameLine settings d' number line).result = .error failure ↔
        (renameLine settings d number line).result = .error failure := by
  refine ⟨fun failure => refused_iff, fun d' hknows failure => ?_⟩
  rw [refused_iff, refused_iff]
  constructor
  · exact Refused.congr fun descriptor hdescriptor name hname =>
      (hknows descriptor hdescriptor name hname).symm
  · exact Refused.congr hknows

/-- The class `a/B` is a target, `a/Q` is the first unknown one. That the class `x/D` and the method `m`
have no entries does not matter, and neither would their entries. -/
theorem renameLine_refuses_second_class :
    let d := Dictionary.empty.insert .klass "a/A".toList "a/B".toList
    let d' := (d.insert .klass "x/D".toList "x/E".toList).insert .method "m".toList "n".toList
    let settings : Settings := ⟨[], [], ["a/".toList], .firstOccurrence⟩
    let line : Text := "open\tmethod\tx/D\tm\t(La/B;La/Q;La/R;)V".toList
    let failure : Failure := ⟨[.descriptorOf .method "x/D".toList "m".toList],
      .missingClass (some 7) ⟨"a/Q".toList, "(La/B;La/Q;La/R;)V".toList⟩⟩
    (renameLine settings d 7 line).result = .error failure ∧
      (renameLine settings d' 7 line).result = .error failure := by
  intro d d' settings line failure
  have hdeclares : Declares .method line := ⟨by decide, by decide, by decide⟩
  have hdescriptor : line.columns[4]? = some "(La/B;La/Q;La/R;)V".toList := by decide
  have hknows : ∀ descriptor, line.columns[4]? = some descriptor →
      ∀ name ∈ Descriptor.references descriptor, d'.Knows name ↔ d.Knows name := by
    intro descriptor h
    rw [hdescriptor] at h
    cases h
    decide +kernel
  have hfirst : Descriptor.references "(La/B;La/Q;La/R;)V".toList =
      ["a/B".toList] ++ "a/Q".toList :: ["a/R".toList] := by decide +kernel
  obtain ⟨hrefused, hsame⟩ := renameLine_refuses settings d 7 line
  have herror : (renameLine settings d 7 line).result = .error failure :=
    (hrefused failure).2 (.unknownClass hdeclares (by decide) rfl (by decide +kernel) hfirst (by decide)
      (by decide))
  exact ⟨herror, (hsame d' hknows failure).2 herror⟩

end Renaming.Access
