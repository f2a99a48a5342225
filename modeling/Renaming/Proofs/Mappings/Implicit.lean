import Renaming.Proofs.Access.Append
import Renaming.Proofs.Mappings.Header

/-!
# Columns from a header and columns without one

Without a header the columns are picked row by row, and a header can name the same ones: the second
namespace and the third. Both ways then agree on every row but those with two names, which are too short
for the header and give their first name to their second without it (`Row.gain_declared_eq`). Where
there are none of these, the header can be left out (`load_behind_header`).
-/

namespace Renaming.Mappings
variable {settings : Settings} {layout layout' : Layout} {row : Row} {lines : List Text}

/-- A row with fewer than two names is too short either way, and with more the columns are the same. -/
theorem Row.gain_declared_eq
    (h : ∀ kind, row.kind? = some kind → row.cells.length - fixedCells kind ≠ 2) :
    row.gain (.declared ⟨1, 2⟩) = row.gain .implicit := by
  unfold Row.gain
  cases hkind : row.kind? with
  | none => rfl
  | some kind =>
    have hcount := h kind hkind
    rw [← List.length_drop] at hcount
    dsimp only
    unfold Row.entry
    generalize row.cells.drop (fixedCells kind) = names at hcount
    match names with
    | [] | [_] | _ :: _ :: _ :: _ => rfl
    | [_, _] => exact absurd rfl hcount

theorem gains_declared_eq (h : ∀ line ∈ lines, ∀ kind, IsRow kind line → nameCount kind line ≠ 2) :
    gains (.declared ⟨1, 2⟩) lines = gains .implicit lines := by
  refine List.map_congr_left fun line hline => Row.gain_declared_eq fun kind hkind => ?_
  have hrow := kind?_ofLine_eq_some_iff.1 hkind
  rw [hrow.cells_ofLine]
  exact h line hline kind hrow

/-- What the rows come to depends on their gains only. -/
theorem loadRows_result_congr (h : gains layout lines = gains layout' lines) (first first' : Nat) :
    (loadRows layout first lines none).result = (loadRows layout' first' lines none).result := by
  have hsum := loadRows_result_eq_ok_iff.1 (rfl : (loadRows layout first lines none).result = .ok _)
  rw [h] at hsum
  exact (loadRows_result_eq_ok_iff.2 hsum).symm

/-- Behind the header its rows are read as they would be without it, from the second line on. -/
theorem load_headed_eq {source : Source} {header : Text} (hheader : IsHeader header)
    (hcolumns : (columnsOfHeader settings (Row.ofLine 1 header)).result = .ok ⟨1, 2⟩)
    (hfirst : ∀ line ∈ source.lines.head?, ¬ IsHeader line)
    (hnames : ∀ line ∈ source.lines, ∀ kind, IsRow kind line → nameCount kind line ≠ 2) :
    (load settings ⟨header :: source.lines, source.fault⟩).result =
      (load settings source).result.mapError (Failure.shift 1) := by
  rw [load_headed (isHeader_ofLine_iff.2 hheader), hcolumns]
  show (loadRows (.declared ⟨1, 2⟩) 2 source.lines source.fault).result = _
  have hload : load settings source = loadRows .implicit 1 source.lines source.fault :=
    load_of_not_header settings hfirst source.fault
  rw [hload]
  cases source.fault with
  | none => exact loadRows_result_congr (gains_declared_eq hnames) 2 1
  | some fault =>
    show Except.error _ = Except.error _
    simp [Failure.shift, Context.shift, Cause.shift]
    omega

/-- Let the header name the source namespace second and the target namespace third, and let no row behind
it have two names. Then loading succeeds with the header exactly if it does without, to the same
dictionary with the same tally. If it fails, the header only makes the line number larger. -/
theorem load_behind_header {top body : Bytes} {header major minor : Text} {namespaces : List Text}
    (hend : top.getLast? = some Bytes.lineFeed) (htop : top.lines = [header.encode])
    (hheader : header.columns = "tiny".toList :: major :: minor :: namespaces)
    (hsource : FirstAt namespaces settings.source 1) (htarget : FirstAt namespaces settings.target 2)
    (hfirst : ∀ line ∈ (Source.ofBytes body).lines.head?, line.columns.head? ≠ some "tiny".toList)
    (hnames : ∀ line ∈ (Source.ofBytes body).lines, ∀ kind, IsRow kind line →
      nameCount kind line ≠ 2) :
    let headed := (load settings (.ofBytes (top ++ body))).result
    let headless := (load settings (.ofBytes body)).result
    (∀ d tally, headed = .ok (d, tally) ↔ headless = .ok (d, tally)) ∧
    ∀ failure, headless = .error failure → headed = .error (failure.shift 1) := by
  have hsourceTop : Source.ofBytes top = ⟨[header], none⟩ := Source.ofBytes_of_lines htop
  have happend : Source.ofBytes (top ++ body) =
      ⟨header :: (Source.ofBytes body).lines, (Source.ofBytes body).fault⟩ := by
    rw [Source.ofBytes_append (.inr hend), hsourceTop]
    rfl
  have hisHeader : IsHeader header := by rw [IsHeader, hheader]; rfl
  have hcells := cells_of_isHeader (isHeader_ofLine_iff.2 hisHeader)
  have hcolumns : (columnsOfHeader settings (Row.ofLine 1 header)).result = .ok ⟨1, 2⟩ :=
    columnsOfHeader_eq_ok_iff.2 ⟨_, _, _, _, hcells.trans hheader, hsource, htarget⟩
  dsimp only
  rw [happend, load_headed_eq hisHeader hcolumns hfirst hnames]
  cases (load settings (.ofBytes body)).result with
  | error failure => simp [Except.mapError]
  | ok loaded => simp [Except.mapError]

/-- Rows with no name, with one, with three and with four, one of them empty, and lines that are no rows.
The second line of the body begins like a header. -/
theorem load_behind_header_three_names :
    let settings : Settings := ⟨"inter".toList, "named".toList, [], .positional⟩
    let header : Text := "tiny\t3\t0\tofficial\tinter\tnamed\tinter".toList
    let body := Text.encode
      "# c\ntiny\t2\nc\ta\tp/A\tq/A\n\tf\n\tf\tI\ta\tf\tg\tx\n\tm\t()V\ta\t\tn\n\t\tp\t1\nc\tb".toList
    let top := Text.encode (header ++ ['\n'])
    let d := (Dictionary.empty.insert .klass "p/A".toList "q/A".toList).insert .field "f".toList
      "g".toList
    (load settings (.ofBytes body)).result = .ok (d, ⟨1, 1, 0, 2⟩) ∧
      (load settings (.ofBytes (top ++ body))).result = .ok (d, ⟨1, 1, 0, 2⟩) := by
  intro settings header body top d
  have hbody : Source.ofBytes body = ⟨["# c".toList, "tiny\t2".toList, "c\ta\tp/A\tq/A".toList,
      "\tf".toList, "\tf\tI\ta\tf\tg\tx".toList, "\tm\t()V\ta\t\tn".toList, "\t\tp\t1".toList,
      "c\tb".toList], none⟩ := by decide +kernel
  have hheader : header.columns = "tiny".toList :: "3".toList :: "0".toList ::
      ["official".toList, "inter".toList, "named".toList, "inter".toList] := by decide +kernel
  have hfirst : ∀ line ∈ (Source.ofBytes body).lines.head?,
      line.columns.head? ≠ some "tiny".toList := by
    rw [hbody]
    decide
  have hnames : ∀ line ∈ (Source.ofBytes body).lines, ∀ kind, IsRow kind line →
      nameCount kind line ≠ 2 := by
    rw [hbody]
    decide +kernel
  have hload : (load settings (.ofBytes body)).result = .ok (d, ⟨1, 1, 0, 2⟩) := by
    rw [hbody]
    rfl
  have hend : top.getLast? = some Bytes.lineFeed := by decide +kernel
  have htop : top.lines = [header.encode] := by decide +kernel
  have hsource : FirstAt ["official".toList, "inter".toList, "named".toList, "inter".toList]
      settings.source 1 := by decide
  have htarget : FirstAt ["official".toList, "inter".toList, "named".toList, "inter".toList]
      settings.target 2 := by decide
  obtain ⟨hsame, -⟩ := load_behind_header hend htop hheader hsource htarget hfirst hnames
  exact ⟨hload, (hsame _ _).2 hload⟩

end Renaming.Mappings
