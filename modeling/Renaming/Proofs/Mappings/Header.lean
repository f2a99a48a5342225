import Renaming.Proofs.Mappings.Load

/-!
# The header of mappings

A first line whose first column is `tiny` is a header (`IsHeader`). It can have too few columns or not
name one of the namespaces (`HeaderFault`), and then nothing behind it is read. Any other file opens
with a header that is good or with none, and what is told of the rows comes behind what is told of the
header (`Opening`, `load_eq_rows`).
-/

namespace Renaming.Mappings
variable {settings : Settings} {header : Text} {lines body : List Text} {pick : Nat → Columns}
  {opening : List Event} {failure : Failure}

/-- The first column of the line is `tiny`, so no tab stands in front of it. -/
def IsHeader (line : Text) : Prop := line.columns.head? = some "tiny".toList

/-- What is wrong with a header. The columns are counted first, and then the source namespace is looked
for before the target namespace. -/
inductive HeaderFault (settings : Settings) (header : Text) : Cause → Prop where
  | short (h : header.columns.length < 3) :
    HeaderFault settings header (.shortRow ⟨1, .header, 3, header.columns.length, header⟩)
  | source (h : 3 ≤ header.columns.length) (hsource : settings.source ∉ header.columns.drop 3) :
    HeaderFault settings header (.unknownNamespace settings.source (header.columns.drop 3))
  | target (h : 3 ≤ header.columns.length) (hsource : settings.source ∈ header.columns.drop 3)
    (htarget : settings.target ∉ header.columns.drop 3) :
    HeaderFault settings header (.unknownNamespace settings.target (header.columns.drop 3))

theorem exists_headerFault_iff : (∃ cause, HeaderFault settings header cause) ↔
    header.columns.length < 3 ∨ settings.source ∉ header.columns.drop 3 ∨
      settings.target ∉ header.columns.drop 3 := by
  constructor
  · rintro ⟨cause, h | ⟨h, hsource⟩ | ⟨h, hsource, htarget⟩⟩
    · exact .inl h
    · exact .inr (.inl hsource)
    · exact .inr (.inr htarget)
  · intro h
    by_cases hlength : header.columns.length < 3
    · exact ⟨_, .short hlength⟩
    · have hlong := Nat.le_of_not_lt hlength
      by_cases hsource : settings.source ∈ header.columns.drop 3
      · exact ⟨_, .target hlong hsource ((h.resolve_left hlength).resolve_left fun hnot => hnot hsource)⟩
      · exact ⟨_, .source hlong hsource⟩

theorem HeaderFault.unique {cause cause' : Cause} (h : HeaderFault settings header cause)
    (h' : HeaderFault settings header cause') : cause = cause' := by
  cases h with
  | short h => cases h' <;> first | rfl | omega
  | source h hsource => cases h' <;> first | rfl | omega | contradiction
  | target h hsource htarget => cases h' <;> first | rfl | omega | contradiction

/-! ### Looking for the namespaces -/

theorem position_eq_error_iff {namespaces : List Text} {name : Text} :
    position namespaces name = .error failure ↔
      name ∉ namespaces ∧ failure = .of (.unknownNamespace name namespaces) := by
  unfold position
  cases hindex : namespaces.idxOf? name with
  | none => simp [List.idxOf?_eq_none_iff.1 hindex, eq_comm]
  | some place =>
    have hmem : name ∈ namespaces := by
      rw [← List.isSome_idxOf?, hindex]
      rfl
    simp [hmem]

theorem chooseColumns_eq_error_iff {namespaces : List Text} :
    chooseColumns settings namespaces = .error failure ↔
      (settings.source ∉ namespaces ∧
        failure = .of (.unknownNamespace settings.source namespaces)) ∨
      settings.source ∈ namespaces ∧ settings.target ∉ namespaces ∧
        failure = .of (.unknownNamespace settings.target namespaces) := by
  rw [chooseColumns]
  cases hsource : position namespaces settings.source with
  | error failure' =>
    obtain ⟨hnot, rfl⟩ := position_eq_error_iff.1 hsource
    simp [bind, Except.bind, hnot, eq_comm]
  | ok i =>
    have hmem : settings.source ∈ namespaces :=
      List.mem_of_getElem? (position_eq_ok_iff.1 hsource).1
    cases htarget : position namespaces settings.target with
    | error failure' =>
      obtain ⟨hnot, rfl⟩ := position_eq_error_iff.1 htarget
      simp [bind, Except.bind, hmem, hnot, eq_comm]
    | ok j =>
      have hmem' : settings.target ∈ namespaces :=
        List.mem_of_getElem? (position_eq_ok_iff.1 htarget).1
      simp [bind, Except.bind, pure, Except.pure, hmem, hmem']

/-- What is told of a header before its namespaces are looked for. -/
def versionWarning (header : Text) : List Event :=
  match header.columns with
  | _ :: major :: minor :: _ => if major = ['2'] then [] else [.versionAssumed major minor]
  | _ => []

theorem columnsOfHeader_of_short (h : IsHeader header) (hlength : header.columns.length < 3) :
    columnsOfHeader settings (Row.ofLine 1 header) = ⟨versionWarning header,
      .error (.of (.shortRow ⟨1, .header, 3, header.columns.length, header⟩))⟩ := by
  have hcells := cells_of_isHeader (isHeader_ofLine_iff.2 h)
  unfold columnsOfHeader versionWarning Row.tooShort
  rw [hcells]
  match hcolumns : header.columns with
  | [] | [_] | [_, _] => rfl
  | _ :: _ :: _ :: _ =>
    rw [hcolumns] at hlength
    exact absurd hlength (by simp)

theorem columnsOfHeader_of_long (h : IsHeader header) (hlength : 3 ≤ header.columns.length) :
    columnsOfHeader settings (Row.ofLine 1 header) =
      match chooseColumns settings (header.columns.drop 3) with
      | .error failure => ⟨versionWarning header, .error failure⟩
      | .ok columns => ⟨versionWarning header ++ [.columnsChosen settings.source columns.source
          settings.target columns.target], .ok columns⟩ := by
  have hcells := cells_of_isHeader (isHeader_ofLine_iff.2 h)
  unfold columnsOfHeader versionWarning
  rw [hcells]
  match hcolumns : header.columns with
  | [] | [_] | [_, _] => simp [hcolumns] at hlength
  | _ :: major :: minor :: namespaces =>
    show _ = match chooseColumns settings namespaces with
      | .error failure => _
      | .ok columns => _
    dsimp only
    by_cases hmajor : major = ['2']
    · rw [if_neg (not_not_intro hmajor), if_pos hmajor]
      cases chooseColumns settings namespaces <;> rfl
    · rw [if_pos hmajor, if_neg hmajor]
      cases chooseColumns settings namespaces <;> rfl

/-! ### Behind the header -/

/-- Which lines are the body of a file, which columns hold the names in a row that has so many, and what
is told before the first row is read. -/
inductive Opening (settings : Settings) :
    List Text → List Text → (Nat → Columns) → List Event → Prop where
  | headed {header : Text} {body : List Text} {i j : Nat} (hheader : IsHeader header)
    (hlength : 3 ≤ header.columns.length)
    (hsource : FirstAt (header.columns.drop 3) settings.source i)
    (htarget : FirstAt (header.columns.drop 3) settings.target j) :
    Opening settings (header :: body) body (fun _ => ⟨i, j⟩)
      (versionWarning header ++ [.columnsChosen settings.source i settings.target j])
  | headless {body : List Text} (hfirst : ∀ line ∈ body.head?, ¬ IsHeader line) :
    Opening settings body body (fun names => if 3 ≤ names then ⟨1, 2⟩ else ⟨0, 1⟩) []

theorem load_of_header (settings : Settings) (h : IsHeader header) (rest : List Text)
    (fault : Option Fault) : load settings ⟨header :: rest, fault⟩ =
      ((columnsOfHeader settings (Row.ofLine 1 header)).mapError (Failure.within .headerLine) >>=
        fun columns => loadRows (.declared columns) 2 rest fault) := by
  simp only [load, isHeader_ofLine_iff.2 h, if_true]

theorem load_of_not_header (settings : Settings) (h : ∀ line ∈ lines.head?, ¬ IsHeader line)
    (fault : Option Fault) : load settings ⟨lines, fault⟩ = loadRows .implicit 1 lines fault := by
  cases lines with
  | nil => rfl
  | cons line rest =>
    have hline : ¬ (Row.ofLine 1 line).isHeader = true :=
      mt isHeader_ofLine_iff.1 (h line rfl)
    simp only [load, hline]
    rfl

/-- Loading ends with a bad header, or reads the rows behind a good one or the rows of a file that has
none. -/
theorem load_eq_rows (settings : Settings) (lines : List Text) (fault : Option Fault) :
    (∃ header rest cause, lines = header :: rest ∧ IsHeader header ∧
      HeaderFault settings header cause ∧
      load settings ⟨lines, fault⟩ = ⟨versionWarning header, .error ⟨[.headerLine], cause⟩⟩) ∨
    ∃ layout body opening, Opening settings lines body (Layout.columns layout) opening ∧
      let rows := loadRows layout (lines.length - body.length + 1) body fault
      load settings ⟨lines, fault⟩ = ⟨opening ++ rows.events, rows.result⟩ := by
  cases lines with
  | nil => exact .inr ⟨.implicit, [], [], .headless (by simp), rfl⟩
  | cons header rest =>
    by_cases hheader : IsHeader header
    · have hload := load_of_header settings hheader rest fault
      by_cases hlength : header.columns.length < 3
      · rw [columnsOfHeader_of_short hheader hlength] at hload
        exact .inl ⟨header, rest, _, rfl, hheader, .short hlength, hload⟩
      · have hlong := Nat.le_of_not_lt hlength
        rw [columnsOfHeader_of_long hheader hlong] at hload
        cases hchosen : chooseColumns settings (header.columns.drop 3) with
        | error failure =>
          rw [hchosen] at hload
          rcases chooseColumns_eq_error_iff.1 hchosen with
            ⟨hsource, rfl⟩ | ⟨hsource, htarget, rfl⟩
          · exact .inl ⟨header, rest, _, rfl, hheader, .source hlong hsource, hload⟩
          · exact .inl ⟨header, rest, _, rfl, hheader, .target hlong hsource htarget, hload⟩
        | ok columns =>
          rw [hchosen] at hload
          obtain ⟨hsource, htarget⟩ := chooseColumns_eq_ok_iff.1 hchosen
          refine .inr ⟨.declared columns, rest, _, .headed hheader hlong hsource htarget, ?_⟩
          rw [List.length_cons, Nat.add_sub_cancel_left]
          exact hload
    · have hfirst : ∀ line ∈ (header :: rest).head?, ¬ IsHeader line := by simpa using hheader
      refine .inr ⟨.implicit, header :: rest, [], .headless hfirst, ?_⟩
      rw [load_of_not_header settings hfirst, Nat.sub_self]
      rfl

theorem FirstAt.mem {names : List Text} {name : Text} {place : Nat} (h : FirstAt names name place) :
    name ∈ names := List.mem_of_getElem? h.1

/-- A file that opens well has no bad header. -/
theorem Opening.not_headerFault (h : Opening settings lines body pick opening) :
    ∀ header ∈ lines.head?, IsHeader header → ∀ cause, ¬ HeaderFault settings header cause := by
  cases h with
  | headed hheader hlength hsource htarget =>
    intro header hmem _ cause hfault
    cases hmem
    rcases exists_headerFault_iff.1 ⟨cause, hfault⟩ with hshort | hnot | hnot
    · omega
    · exact hnot hsource.mem
    · exact hnot htarget.mem
  | headless hfirst =>
    intro header hmem hheader
    exact absurd hheader (hfirst header hmem)

end Renaming.Mappings
