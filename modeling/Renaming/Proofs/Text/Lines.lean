import Renaming.Proofs.Text.Columns
import Renaming.Source

/-!
# Reading back the lines that were written

An ASCII character is in a text exactly if its byte is in the encoding, so the lines of a text are
found among the bytes. `encodeLines` writes lines with a line feed behind each; splitting its bytes
at the line feeds gives the lines back (`splitOn_encodeLines`), and so does reading them if no line
holds a carriage return (`Source.ofBytes_encodeLines`).
-/

namespace Renaming

theorem mem_utf8EncodeChar_iff {c d : Char} (hc : c.toNat < 128) :
    UInt8.ofNat c.toNat ∈ String.utf8EncodeChar d ↔ c = d := by
  have hbyte : ∀ n : Nat, UInt8.ofNat c.toNat = UInt8.ofNat n ↔ c.toNat = n % 256 := by
    intro n
    rw [← UInt8.toNat_inj]
    simp only [UInt8.toNat_ofNat']
    omega
  rw [← Char.toNat_inj]
  show _ ↔ c.toNat = d.val.toNat
  -- a character from 128 on has only bytes from 128 on
  fun_cases String.utf8EncodeChar d with
  | case1 v hv => simp only [List.mem_singleton, hbyte]; omega
  | case2 v hv => simp only [List.mem_cons, List.not_mem_nil, or_false, hbyte]; omega
  | case3 v hv => simp only [List.mem_cons, List.not_mem_nil, or_false, hbyte]; omega
  | case4 v hv => simp only [List.mem_cons, List.not_mem_nil, or_false, hbyte]; omega

namespace Text
variable {s line : Text}

theorem mem_encode_iff {c : Char} (hc : c.toNat < 128) : UInt8.ofNat c.toNat ∈ s.encode ↔ c ∈ s := by
  simp [encode, mem_utf8EncodeChar_iff hc]

theorem lineFeed_mem_encode : Bytes.lineFeed ∈ s.encode ↔ '\n' ∈ s :=
  mem_encode_iff (c := '\n') (by decide)

theorem carriageReturn_mem_encode : Bytes.carriageReturn ∈ s.encode ↔ '\r' ∈ s :=
  mem_encode_iff (c := '\r') (by decide)

/-- The bytes of the lines, with a line feed behind each. -/
def encodeLines (lines : List Text) : Bytes := lines.flatMap fun line => encode (line ++ ['\n'])

@[simp] theorem encodeLines_nil : encodeLines [] = [] := rfl

@[simp] theorem encodeLines_cons (line : Text) (lines : List Text) :
    encodeLines (line :: lines) = encode (line ++ ['\n']) ++ encodeLines lines := rfl

theorem encodeLines_append (lines lines' : List Text) :
    encodeLines (lines ++ lines') = encodeLines lines ++ encodeLines lines' := List.flatMap_append

/-- A line feed is written for each line, and for nothing else. -/
theorem count_encodeLines {lines : List Text} (h : ∀ line ∈ lines, '\n' ∉ line) :
    (encodeLines lines).count Bytes.lineFeed = lines.length := by
  induction lines with
  | nil => rfl
  | cons line lines ih =>
    obtain ⟨hline, hlines⟩ := List.forall_mem_cons.1 h
    have hnone : line.encode.count Bytes.lineFeed = 0 :=
      List.count_eq_zero.2 (mt lineFeed_mem_encode.1 hline)
    have hone : (encode ['\n']).count Bytes.lineFeed = 1 := rfl
    rw [encodeLines_cons, encode_append, List.count_append, List.count_append, hnone, hone, ih hlines,
      List.length_cons, Nat.zero_add, Nat.add_comm]

theorem splitOn_encodeLines {lines : List Text} (h : ∀ line ∈ lines, '\n' ∉ line) :
    (encodeLines lines).splitOn Bytes.lineFeed = lines.map encode ++ [[]] := by
  induction lines with
  | nil => rfl
  | cons line lines ih =>
    obtain ⟨hline, hlines⟩ := List.forall_mem_cons.1 h
    have hbytes : encodeLines (line :: lines) = line.encode ++ Bytes.lineFeed :: encodeLines lines := by
      rw [encodeLines_cons, encode_append, List.append_assoc]
      rfl
    rw [hbytes, List.splitOn_append_cons_self_of_not_mem (mt lineFeed_mem_encode.1 hline), ih hlines]
    rfl

end Text

namespace Bytes
variable {bytes line : Bytes}

theorem chomp_eq_self (h : carriageReturn ∉ line) : chomp line = line := by
  rw [chomp, if_neg]
  intro hlast
  exact h (List.mem_of_getLast? hlast)

theorem mem_of_mem_chomp {b : UInt8} (h : b ∈ chomp line) : b ∈ line := by
  rw [chomp] at h
  split at h
  · exact List.dropLast_subset _ h
  · exact h

/-- Every line is a part between two line feeds, maybe without a carriage return. -/
theorem exists_of_mem_lines (h : line ∈ bytes.lines) :
    ∃ piece ∈ bytes.splitOn lineFeed, ∀ b ∈ line, b ∈ piece := by
  rw [lines, List.mem_append] at h
  rcases h with h | h
  · obtain ⟨piece, hpiece, rfl⟩ := List.mem_map.1 h
    exact ⟨piece, List.dropLast_subset _ hpiece, fun b => mem_of_mem_chomp⟩
  · obtain ⟨hline, -⟩ := List.mem_filter.1 h
    exact ⟨line, List.mem_of_getLast? (Option.mem_toList.1 hline), fun b hb => hb⟩

theorem lineFeed_not_mem_of_mem_lines (h : line ∈ bytes.lines) : lineFeed ∉ line := by
  obtain ⟨piece, hpiece, hsub⟩ := exists_of_mem_lines h
  exact fun hmem => not_mem_of_mem_splitOn hpiece (hsub _ hmem)

theorem mem_of_mem_lines {b : UInt8} (h : line ∈ bytes.lines) (hb : b ∈ line) : b ∈ bytes := by
  obtain ⟨piece, hpiece, hsub⟩ := exists_of_mem_lines h
  exact mem_of_mem_splitOn hpiece (hsub b hb)

theorem lines_encodeLines {texts : List Text} (hfeed : ∀ line ∈ texts, '\n' ∉ line)
    (hreturn : ∀ line ∈ texts, '\r' ∉ line) :
    lines (Text.encodeLines texts) = texts.map Text.encode := by
  have hchomp : ∀ line ∈ texts.map Text.encode, chomp line = line := by
    intro line hline
    obtain ⟨s, hs, rfl⟩ := List.mem_map.1 hline
    exact chomp_eq_self (mt Text.carriageReturn_mem_encode.1 (hreturn s hs))
  rw [lines, Text.splitOn_encodeLines hfeed]
  simp [List.map_congr_left hchomp]

/-- Lines of bytes are texts, all of them or up to the first that is not valid UTF-8. -/
theorem exists_texts (lines : List Bytes) : ∃ texts : List Text, lines = texts.map Text.encode ∨
    ∃ line after, lines = texts.map Text.encode ++ line :: after ∧ decode? line = none := by
  induction lines with
  | nil => exact ⟨[], .inl rfl⟩
  | cons line lines ih =>
    cases hline : decode? line with
    | none => exact ⟨[], .inr ⟨line, lines, rfl, hline⟩⟩
    | some s =>
      rw [eq_encode_of_decode? hline]
      obtain ⟨texts, rfl | ⟨bad, after, rfl, hbad⟩⟩ := ih
      · exact ⟨s :: texts, .inl rfl⟩
      · exact ⟨s :: texts, .inr ⟨bad, after, rfl, hbad⟩⟩

theorem map_decode?_map_encode (texts : List Text) :
    (texts.map Text.encode).map decode? = texts.map some := by
  rw [List.map_map]
  exact List.map_congr_left fun s _ => decode?_encode s

end Bytes

namespace Source
variable {bytes : Bytes} {texts : List Text}

theorem takeWhile_isSome (texts : List Text) (rest : List (Option Text)) :
    (texts.map some ++ rest).takeWhile (·.isSome) = texts.map some ++ rest.takeWhile (·.isSome) :=
  List.takeWhile_append_of_pos (by simp)

theorem ofBytes_of_lines (h : bytes.lines = texts.map Text.encode) : ofBytes bytes = ⟨texts, none⟩ := by
  have htake := takeWhile_isSome texts []
  rw [List.append_nil, List.takeWhile_nil, List.append_nil] at htake
  simp only [ofBytes, h, Bytes.map_decode?_map_encode]
  rw [htake]
  simp

theorem ofBytes_of_invalid {line : Bytes} {after : List Bytes}
    (h : bytes.lines = texts.map Text.encode ++ line :: after) (hline : line.decode? = none) :
    ofBytes bytes = ⟨texts, some .invalidUtf8⟩ := by
  simp only [ofBytes, h, List.map_append, List.map_cons, Bytes.map_decode?_map_encode, hline]
  rw [takeWhile_isSome]
  simp

theorem lines_of_fault_eq_none (h : (ofBytes bytes).fault = none) :
    bytes.lines = (ofBytes bytes).lines.map Text.encode := by
  obtain ⟨texts, hlines | ⟨line, after, hlines, hline⟩⟩ := Bytes.exists_texts bytes.lines
  · rw [ofBytes_of_lines hlines, hlines]
  · rw [ofBytes_of_invalid hlines hline] at h
    cases h

theorem ofBytes_encodeLines (hfeed : ∀ line ∈ texts, '\n' ∉ line)
    (hreturn : ∀ line ∈ texts, '\r' ∉ line) : ofBytes (Text.encodeLines texts) = ⟨texts, none⟩ :=
  ofBytes_of_lines (Bytes.lines_encodeLines hfeed hreturn)

variable {line : Text}

theorem encode_mem_lines (h : (ofBytes bytes).fault = none) (hline : line ∈ (ofBytes bytes).lines) :
    line.encode ∈ bytes.lines := by
  rw [lines_of_fault_eq_none h]
  exact List.mem_map_of_mem hline

theorem lineFeed_not_mem (h : (ofBytes bytes).fault = none) (hline : line ∈ (ofBytes bytes).lines) :
    '\n' ∉ line :=
  mt Text.lineFeed_mem_encode.2 (Bytes.lineFeed_not_mem_of_mem_lines (encode_mem_lines h hline))

theorem carriageReturn_not_mem (hbytes : Bytes.carriageReturn ∉ bytes)
    (h : (ofBytes bytes).fault = none) (hline : line ∈ (ofBytes bytes).lines) : '\r' ∉ line :=
  fun hmem => hbytes
    (Bytes.mem_of_mem_lines (encode_mem_lines h hline) (Text.carriageReturn_mem_encode.2 hmem))

end Source

end Renaming
