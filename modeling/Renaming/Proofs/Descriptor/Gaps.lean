import Renaming.Proofs.Descriptor.Cut
import Renaming.Proofs.Descriptor.Spans

/-!
# What stays of a renamed descriptor

The scan of a renamed text goes over other bytes, at other places, and what stands in a gap may look
like the start of a reference. `rename_keeps_gaps` says that the scan finds the new names all the
same, one for each reference, and between them the `gaps` of the old text. A leftmost cut stays
leftmost if names of classes come in the place of its names (`Cut.Leftmost.mapNames`), and the gaps
of a text are those of its leftmost cut (`Cut.Leftmost.gaps_render`).
-/

namespace Renaming.Descriptor
variable {settings : Settings} {d : Dictionary} {s t : Text} {f : Text → Text}

/-- The bytes before, between and after the spans, from byte `start` on. -/
def gapsFrom (bytes : Bytes) (start : Nat) : List Span → List Bytes
  | [] => [bytes.drop start]
  | span :: rest => bytes.extract start span.start :: gapsFrom bytes span.stop rest

/-- The bytes of a text that belong to no reference, cut where a reference stands. -/
def gaps (s : Text) : List Bytes := gapsFrom s.encode 0 (spans s)

/-- The span is a reference to the class, in its own text and in the bytes of the whole. -/
structure Span.Refers (s : Text) (span : Span) (name : Text) : Prop where
  text : span.text = (Piece.reference name).render
  bytes : s.encode.extract span.start span.stop = (Piece.reference name).render.encode

/-- The name that a renaming of the text puts for a class. One class outside the packages keeps the
names of all. -/
def newName (settings : Settings) (d : Dictionary) (s name : Text) : Text :=
  if (references s).all settings.covers then d.rename .klass name else name

/-! ### Names put in the place of others -/

theorem eq_of_rename (hmode : settings.substitution = .positional)
    (h : (rename settings d s).result = .ok t) :
    t = join ((pieces s).map (Piece.mapName (newName settings d s))) := by
  have hall : (references s).all settings.covers = true ↔ ¬ Outside settings s := by
    rw [not_outside_iff, List.all_eq_true]
  rcases rename_eq_ok_iff.1 h with ⟨hout, rfl⟩ | ⟨hout, -, rfl⟩
  · have hkept : ∀ name ∈ namesOf (pieces t), newName settings d t name = name := fun name _ =>
      if_neg (mt hall.1 (not_not_intro hout))
    rw [map_mapName_of_fixed hkept, join_pieces]
  · rw [hmode, substitute_positional]
    exact congrArg join (map_mapName_congr fun name _ => (if_pos (hall.2 hout)).symm)

/-! ### Gaps of a cut -/

theorem spansFrom_map_plain_append (start : Nat) (gap : Text) (ps : List Piece) :
    spansFrom start (gap.map .plain ++ ps) = spansFrom (start + gap.encode.length) ps := by
  induction gap generalizing start with
  | nil => rfl
  | cons c gap ih =>
    have hlength : (Text.encode (c :: gap)).length =
        (Piece.plain c).render.encode.length + (Text.encode gap).length := by
      rw [← List.length_append, ← Text.encode_append]
      rfl
    rw [hlength, ← Nat.add_assoc]
    exact ih _

namespace Cut

def gaps : Cut → List Text
  | .tail text => [text]
  | .reference gap _ rest => gap :: rest.gaps

theorem gaps_mapNames (f : Text → Text) (cut : Cut) : (cut.mapNames f).gaps = cut.gaps := by
  induction cut with
  | tail text => rfl
  | reference gap name rest ih => exact congrArg (gap :: ·) ih

theorem Leftmost.mapNames {cut : Cut} (h : cut.Leftmost)
    (hf : ∀ name ∈ cut.names, IsClassName (f name)) : (cut.mapNames f).Leftmost := by
  rw [← scanned_toPieces_iff, toPieces_mapNames]
  rw [← namesOf_toPieces] at hf
  exact (scanned_toPieces_iff.2 h).map_mapName hf

theorem gapsFrom_toPieces (lead : Text) (cut : Cut) :
    gapsFrom (lead ++ cut.render).encode lead.encode.length
      (spansFrom lead.encode.length cut.toPieces) = cut.gaps.map Text.encode := by
  -- the gap and the reference that have been read go over to `lead`
  induction cut generalizing lead with
  | tail text =>
    have hspans := spansFrom_map_plain_append lead.encode.length text []
    rw [List.append_nil] at hspans
    rw [toPieces, hspans]
    simp [spansFrom, gapsFrom, render, gaps]
  | reference gap name rest ih =>
    have hnext := ih (lead ++ gap ++ (Piece.reference name).render)
    simp only [Text.encode_append, List.length_append, List.append_assoc] at hnext
    have hgap (after : Bytes) : (lead.encode ++ (gap.encode ++ after)).extract lead.encode.length
        (lead.encode.length + gap.encode.length) = gap.encode := by simp
    rw [toPieces, spansFrom_map_plain_append]
    simp only [spansFrom, gapsFrom, render, gaps, List.map_cons, Text.encode_append,
      List.append_assoc, Nat.add_assoc, hnext, hgap]

theorem Leftmost.gaps_render {cut : Cut} (h : cut.Leftmost) :
    Descriptor.gaps cut.render = cut.gaps.map Text.encode := by
  rw [Descriptor.gaps, spans, h.pieces_render]
  exact gapsFrom_toPieces [] cut

end Cut

theorem gaps_mapName (hf : ∀ name ∈ references s, IsClassName (f name)) :
    gaps (join ((pieces s).map (Piece.mapName f))) = gaps s := by
  have hcut := Cut.leftmost_ofPieces s
  have hrender := Cut.render_ofPieces s
  generalize Cut.ofPieces (pieces s) = cut at hcut hrender
  subst hrender
  rw [hcut.references_render] at hf
  rw [hcut.pieces_render, ← Cut.toPieces_mapNames, Cut.join_toPieces, (hcut.mapNames hf).gaps_render,
    Cut.gaps_mapNames, hcut.gaps_render]

/-! ### References -/

theorem refers_spansFrom (lead : Text) (ps : List Piece) :
    List.Forall₂ (Span.Refers (lead ++ join ps)) (spansFrom lead.encode.length ps) (namesOf ps) := by
  induction ps generalizing lead with
  | nil => exact .nil
  | cons piece ps ih =>
    have hrest := ih (lead ++ piece.render)
    rw [List.append_assoc, ← join_cons, Text.encode_append, List.length_append] at hrest
    cases piece with
    | plain c => exact hrest
    | reference name => exact .cons ⟨rfl, by simp⟩ hrest

/-- The spans of a text are its references, in the order of the text. -/
theorem refers_spans (s : Text) : List.Forall₂ (Span.Refers s) (spans s) (references s) := by
  have h := refers_spansFrom [] (pieces s)
  rwa [List.nil_append, join_pieces] at h

/-- A renaming that puts names of classes in the place of the references keeps how many there are,
their order and the gaps around them. Wherever else a reference stands in the new text, it is the end
of one of these: nothing in a gap takes up a new name. -/
theorem rename_keeps_gaps (hmode : settings.substitution = .positional)
    (hnames : ∀ name ∈ references s, IsClassName (newName settings d s name))
    (h : (rename settings d s).result = .ok t) :
    List.Forall₂ (Span.Refers s) (spans s) (references s) ∧
    List.Forall₂ (Span.Refers t) (spans t) ((references s).map (newName settings d s)) ∧
    gaps t = gaps s ∧
    ∀ start stop, stop ≤ t.encode.length → IsReference (t.encode.extract start stop) →
      ∃ span ∈ spans t, span.stop = stop ∧ span.start ≤ start := by
  obtain rfl := eq_of_rename hmode h
  refine ⟨refers_spans s, ?_, gaps_mapName hnames, fun _ _ hstop hbytes => exists_span hstop hbytes⟩
  rw [← references_join_map_mapName hnames]
  exact refers_spans _

/-- Names get longer and shorter, next to an `L` that is never closed and one that has no name. -/
theorem rename_keeps_gaps_unclosed :
    let s : Text := "é(LIx[yLa/b;LLq;aL;Lc/D;Lz".toList
    let t : Text := "é(LIx[yLLL/L;Lq;aL;Lc/D;Lz".toList
    let d := ((Dictionary.empty.insert .klass "a/b".toList "LL/L".toList).insert
      .klass "Lq".toList "q".toList).insert .klass "z".toList "c/D".toList
    let settings : Settings := ⟨[], [], [[]], .positional⟩
    (rename settings d s).result = .ok t ∧
    gaps s = ["é(LIx[y".toList, [], "aL;".toList, "Lz".toList].map Text.encode ∧
    List.Forall₂ (Span.Refers t) (spans t) ["LL/L".toList, "q".toList, "c/D".toList] ∧
    gaps t = gaps s := by
  intro s t d settings
  have hok : (rename settings d s).result = .ok t := by decide +kernel
  have hnames : (references s).map (newName settings d s) =
      ["LL/L".toList, "q".toList, "c/D".toList] := by decide +kernel
  have hmode : settings.substitution = .positional := rfl
  have h := rename_keeps_gaps hmode (by decide +kernel) hok
  exact ⟨hok, by decide +kernel, hnames ▸ h.2.1, h.2.2.1⟩

end Renaming.Descriptor
