import Mathlib.Data.List.Pairwise
import Renaming.Proofs.Descriptor.Occurrence
import Renaming.Proofs.Text.Ascii

/-!
# The places of the references

`IsReference` says of bytes that they are a reference. The spans of a text are such bytes, cut out
at the ends of characters, one after the other, and wherever else the bytes of a reference stand
they are the end of a span (`spans_leftmost`): the scan starts each span at the first `L` from which
the `;` can be reached.
-/

namespace Renaming.Descriptor
variable {s name : Text} {ps : List Piece} {bytes : Bytes} {span span' : Span} {start : Nat}

/-- The bytes that the name of a class may have. -/
def isNameByte (b : UInt8) : Bool := isNameChar (Char.ofUInt8 b)

/-- An `L`, at least one byte of a name and a `;`. -/
def IsReference (bytes : Bytes) : Prop :=
  ∃ name : Bytes, name ≠ [] ∧ (∀ b ∈ name, isNameByte b = true) ∧ bytes = 76 :: name ++ [59]

/-- Some character of the text starts at byte `n`, or the text ends there. -/
def IsBoundary (s : Text) (n : Nat) : Prop :=
  ∃ before after : Text, s = before ++ after ∧ n = before.encode.length

theorem isNameChar_ascii {c : Char} (h : isNameChar c = true) : c.toNat < 128 := by
  simp only [isNameChar, Bool.or_eq_true, beq_iff_eq] at h
  rcases h with ((h | rfl) | rfl) | rfl
  · change ((decide (c.val ≥ 65 ∧ c.val ≤ 90) ||
      (decide (c.val ≥ 97) && decide (c.val ≤ 122))) ||
      (decide (c.val ≥ 48) && decide (c.val ≤ 57))) = true at h
    simp only [Bool.or_eq_true, Bool.and_eq_true, decide_eq_true_eq, UInt32.le_iff_toNat_le,
      ge_iff_le] at h
    change ((65 ≤ c.toNat ∧ c.toNat ≤ 90) ∨ 97 ≤ c.toNat ∧ c.toNat ≤ 122) ∨
      48 ≤ c.toNat ∧ c.toNat ≤ 57 at h
    omega
  all_goals decide

theorem ascii_render (h : IsClassName name) :
    ∀ c ∈ (Piece.reference name).render, c.toNat < 128 := by
  intro c hc
  simp only [Piece.render, List.cons_append, List.mem_cons, List.mem_append, List.not_mem_nil,
    or_false] at hc
  rcases hc with rfl | hc | rfl
  · decide
  · exact isNameChar_ascii (h.2 c hc)
  · decide

theorem isReference_encode (h : IsClassName name) :
    IsReference (Piece.reference name).render.encode := by
  refine ⟨name.map Char.toUInt8, by simpa using h.1, ?_, ?_⟩
  · intro b hb
    obtain ⟨c, hc, rfl⟩ := List.mem_map.1 hb
    rw [isNameByte, Text.ofUInt8_toUInt8 (isNameChar_ascii (h.2 c hc))]
    exact h.2 c hc
  · rw [Text.encode_of_ascii (ascii_render h), Piece.render, List.map_append]
    rfl

theorem IsReference.exists_name (h : IsReference bytes) :
    ∃ name, IsClassName name ∧ bytes.map Char.ofUInt8 = (Piece.reference name).render ∧
      ∀ b ∈ bytes, b.toNat < 128 := by
  obtain ⟨name, hne, hname, rfl⟩ := h
  refine ⟨name.map Char.ofUInt8, ⟨by simpa using hne, ?_⟩, ?_, ?_⟩
  · intro c hc
    obtain ⟨b, hb, rfl⟩ := List.mem_map.1 hc
    exact hname b hb
  · rw [List.map_append]
    rfl
  · intro b hb
    simp only [List.cons_append, List.mem_cons, List.mem_append, List.not_mem_nil, or_false] at hb
    rcases hb with rfl | hb | rfl
    · decide
    · exact isNameChar_ascii (hname b hb)
    · decide

/-! ### Spans among pieces -/

/-- The span of a reference that comes after the pieces `before`, if these start at byte `start`. -/
def spanAfter (start : Nat) (before : List Piece) (name : Text) : Span where
  start := start + (join before).encode.length
  stop := start + (join before).encode.length + (Piece.reference name).render.encode.length
  text := (Piece.reference name).render

theorem spanAfter_cons (start : Nat) (piece : Piece) (before : List Piece) (name : Text) :
    spanAfter start (piece :: before) name =
      spanAfter (start + piece.render.encode.length) before name := by
  simp only [spanAfter, join_cons, Text.encode_append, List.length_append, Nat.add_assoc]

theorem mem_spansFrom_iff : span ∈ spansFrom start ps ↔
    ∃ before name after, ps = before ++ .reference name :: after ∧
      span = spanAfter start before name := by
  induction ps generalizing start with
  | nil => simp [spansFrom]
  | cons piece ps ih =>
    have hsplit : (∃ before name after, piece :: ps = before ++ .reference name :: after ∧
        span = spanAfter start before name) ↔
        (∃ name, piece = .reference name ∧ span = spanAfter start [] name) ∨
          span ∈ spansFrom (start + piece.render.encode.length) ps := by
      rw [ih]
      constructor
      · rintro ⟨before, name, after, heq, hspan⟩
        rcases List.cons_eq_append_iff.1 heq with ⟨rfl, hps⟩ | ⟨before, rfl, rfl⟩
        · exact .inl ⟨name, (List.cons.inj hps).1.symm, hspan⟩
        · exact .inr ⟨before, name, after, rfl, hspan.trans (spanAfter_cons ..)⟩
      · rintro (⟨name, rfl, hspan⟩ | ⟨before, name, after, rfl, hspan⟩)
        · exact ⟨[], name, ps, rfl, hspan⟩
        · exact ⟨piece :: before, name, after, rfl, hspan.trans (spanAfter_cons ..).symm⟩
    rw [hsplit]
    cases piece with
    | plain c => simp [spansFrom]
    | reference name => simp [spansFrom, spanAfter]

theorem mem_spans_iff : span ∈ spans s ↔
    ∃ before name after, pieces s = before ++ .reference name :: after ∧
      span = spanAfter 0 before name := mem_spansFrom_iff

theorem pairwise_spansFrom : (spansFrom start ps).Pairwise fun x y => x.stop ≤ y.start := by
  induction ps generalizing start with
  | nil => exact .nil
  | cons piece ps ih =>
    cases piece with
    | plain c => exact ih
    | reference name =>
      refine List.pairwise_cons.2 ⟨fun span hspan => ?_, ih⟩
      obtain ⟨before, name', after, -, rfl⟩ := mem_spansFrom_iff.1 hspan
      exact Nat.le_add_right _ _

theorem start_lt_stop (h : span ∈ spans s) : span.start < span.stop := by
  obtain ⟨before, name, after, -, rfl⟩ := mem_spans_iff.1 h
  have hne : (Piece.reference name).render.encode ≠ [] := fun hnil =>
    List.cons_ne_nil _ _ (Text.eq_nil_of_encode hnil)
  exact Nat.lt_add_of_pos_right (List.length_pos_of_ne_nil hne)

/-- No two spans end at the same byte. -/
theorem eq_of_stop_eq (h : span ∈ spans s) (h' : span' ∈ spans s) (hstop : span.stop = span'.stop) :
    span = span' := by
  have hne : (spans s).Pairwise fun x y => x.stop ≠ y.stop := by
    refine pairwise_spansFrom.imp_of_mem fun {x y} _ hy hle heq => ?_
    have hlt := start_lt_stop hy
    omega
  have hsymm : Std.Symm fun x y : Span => x.stop ≠ y.stop := ⟨fun _ _ => Ne.symm⟩
  by_contra hdiff
  exact hne.forall h h' hdiff hstop

/-- A span lies in the text, between characters, and its bytes are those of a reference. -/
theorem span_sound (h : span ∈ spans s) :
    span.stop ≤ s.encode.length ∧ IsBoundary s span.start ∧ IsBoundary s span.stop ∧
      s.encode.extract span.start span.stop = span.text.encode ∧ IsReference span.text.encode := by
  obtain ⟨before, name, after, hs, rfl⟩ := mem_spans_iff.1 h
  have htext : s = join before ++ ((Piece.reference name).render ++ join after) := eq_of_pieces hs
  refine ⟨?_, ⟨_, _, htext, ?_⟩, ⟨_, _, htext.trans (List.append_assoc ..).symm, ?_⟩, ?_,
    isReference_encode (isClassName_of_pieces hs)⟩
  · simp [htext, spanAfter]
  · simp [spanAfter]
  · simp [spanAfter]
  · simp [htext, spanAfter]

/-- A reference inside another one ends where that one ends. -/
theorem eq_nil_of_render_eq {outer lead trail : Text} (h : IsClassName outer)
    (heq : (Piece.reference outer).render = lead ++ (Piece.reference name).render ++ trail) :
    trail = [] := by
  have heq' : ('L' :: outer) ++ ';' :: [] = (lead ++ 'L' :: name) ++ ';' :: trail := by
    simpa [Piece.render] using heq
  exact ((List.append_cons_inj_of_notMem (semicolon_not_mem h) List.not_mem_nil).1 heq').2.2.symm

/-- The bytes of a reference are the end of a span. -/
theorem exists_span {stop : Nat} (hstop : stop ≤ s.encode.length)
    (h : IsReference (s.encode.extract start stop)) :
    ∃ span ∈ spans s, span.stop = stop ∧ span.start ≤ start := by
  obtain ⟨name, hname, hrender, hascii⟩ := h.exists_name
  have hne : s.encode.extract start stop ≠ [] := fun hnil => by
    rw [hnil] at hrender
    exact List.cons_ne_nil _ _ hrender.symm
  have hbytes : s.encode =
      s.encode.take start ++ s.encode.extract start stop ++ (s.encode.drop start).drop (stop - start) := by
    rw [List.append_assoc, List.take_append_drop, List.take_append_drop]
  obtain ⟨left, right, hs, hleft, hright⟩ := Text.exists_of_encode_eq_run hascii hne hbytes
  rw [hrender] at hs
  have hpos := List.length_pos_of_ne_nil hne
  have htotal := congrArg (fun s : Text => s.encode.length) hs
  simp only [List.length_take, List.length_drop, Text.encode_append, List.length_append, hleft,
    hright] at hpos htotal
  obtain ⟨before, outer, after, lead, trail, hpieces, houter, rfl, -⟩ :=
    (scanned_pieces s).quiet.inside hname ((join_pieces s).trans hs)
  rw [eq_nil_of_render_eq (isClassName_of_pieces hpieces) houter, List.append_nil] at houter
  have hstart := congrArg List.length hleft
  simp only [Text.encode_append, List.length_append, List.length_take] at hstart
  refine ⟨_, mem_spans_iff.2 ⟨_, _, _, hpieces, rfl⟩, ?_, ?_⟩
  · show 0 + (join before).encode.length + (Piece.reference outer).render.encode.length = stop
    rw [houter, Text.encode_append, List.length_append]
    omega
  · show 0 + (join before).encode.length ≤ start
    omega

/-- The spans are references that start and end between characters, each begins where the one
before it ends or later, and wherever else a reference stands, a span ends with it. This span is the
only one that ends there, and it starts at the leftmost possible `L`. -/
theorem spans_leftmost (s : Text) :
    (∀ span ∈ spans s, span.start < span.stop ∧ span.stop ≤ s.encode.length ∧
      IsBoundary s span.start ∧ IsBoundary s span.stop ∧
      s.encode.extract span.start span.stop = span.text.encode ∧
      IsReference (s.encode.extract span.start span.stop)) ∧
    (spans s).Pairwise (fun x y => x.stop ≤ y.start) ∧
    ∀ start stop, stop ≤ s.encode.length → IsReference (s.encode.extract start stop) →
      ∃ span ∈ spans s, span.stop = stop ∧ span.start ≤ start ∧
        ∀ other ∈ spans s, other.stop = stop → other = span := by
  refine ⟨fun span hspan => ?_, pairwise_spansFrom, fun start stop hstop h => ?_⟩
  · obtain ⟨hstop, hleft, hright, htext, hreference⟩ := span_sound hspan
    exact ⟨start_lt_stop hspan, hstop, hleft, hright, htext, htext ▸ hreference⟩
  · obtain ⟨span, hspan, hend, hstart⟩ := exists_span hstop h
    exact ⟨span, hspan, hend, hstart, fun other hother hother' =>
      eq_of_stop_eq hother hspan (hother'.trans hend.symm)⟩

/-- The reference `La/b;` at byte 4 is the end of the span `LLa/b;`, which starts at byte 3. -/
theorem spans_leftmost_inner :
    let s : Text := "é(LLa/b;".toList
    IsReference (s.encode.extract 4 9) ∧
      ∃ span ∈ spans s, span.stop = 9 ∧ span.start ≤ 4 ∧
        ∀ other ∈ spans s, other.stop = 9 → other = span := by
  intro s
  have h : IsReference (s.encode.extract 4 9) :=
    ⟨[97, 47, 98], by decide, by decide +kernel, by decide +kernel⟩
  exact ⟨h, (spans_leftmost s).2.2 4 9 (by decide +kernel) h⟩

end Renaming.Descriptor
