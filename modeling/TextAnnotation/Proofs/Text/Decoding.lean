import Mathlib.Data.List.Infix
import TextAnnotation.Text.Utf8

/-!
Decoding reads what encoding writes and nothing else. A table of the bytes that a code point is written with stands
between the two: a piece is a character if and only if the table has its bytes, and encoding writes the bytes of the
table. Where decoding fails, the longest text that the bytes begin with ends.
-/

namespace TextAnnotation.Text.Utf8

/-- The lead bytes as numbers. -/
theorem lead?_eq (b : UInt8) :
    lead? b =
      if 0xC2 ≤ b.toNat ∧ b.toNat ≤ 0xDF then some ⟨1, 0x80, 0xBF, b.toNat - 0xC0⟩
      else if b.toNat = 0xE0 then some ⟨2, 0xA0, 0xBF, 0⟩
      else if b.toNat = 0xED then some ⟨2, 0x80, 0x9F, 0xD⟩
      else if 0xE1 ≤ b.toNat ∧ b.toNat ≤ 0xEF then some ⟨2, 0x80, 0xBF, b.toNat - 0xE0⟩
      else if b.toNat = 0xF0 then some ⟨3, 0x90, 0xBF, 0⟩
      else if 0xF1 ≤ b.toNat ∧ b.toNat ≤ 0xF3 then some ⟨3, 0x80, 0xBF, b.toNat - 0xF0⟩
      else if b.toNat = 0xF4 then some ⟨3, 0x80, 0x8F, 4⟩
      else none := by
  simp only [lead?, Bool.and_eq_true, decide_eq_true_eq, UInt8.le_iff_toNat_le, beq_iff_eq, ← UInt8.toNat_inj,
    UInt8.reduceToNat]

theorem lead?_of_two {b : UInt8} (hlo : 0xC2 ≤ b.toNat) (hhi : b.toNat ≤ 0xDF) :
    lead? b = some ⟨1, 0x80, 0xBF, b.toNat - 0xC0⟩ := by
  rw [lead?_eq, if_pos ⟨hlo, hhi⟩]

/-- The bounds of the second of three bytes keep out code points that two bytes hold and surrogates. -/
theorem lead?_of_three {b : UInt8} (hlo : 0xE0 ≤ b.toNat) (hhi : b.toNat ≤ 0xEF) :
    ∃ lo hi, lead? b = some ⟨2, lo, hi, b.toNat - 0xE0⟩ ∧ ∀ x : UInt8, lo ≤ x ∧ x ≤ hi ↔
      (0x80 ≤ x.toNat ∧ x.toNat ≤ 0xBF) ∧ 0x20 ≤ (b.toNat - 0xE0) * 64 + (x.toNat - 0x80) ∧
        ((b.toNat - 0xE0) * 64 + (x.toNat - 0x80) < 0x360 ∨ 0x37F < (b.toNat - 0xE0) * 64 + (x.toNat - 0x80)) := by
  simp only [UInt8.le_iff_toNat_le]
  rw [lead?_eq, if_neg (by omega)]
  by_cases hE0 : b.toNat = 0xE0
  · refine ⟨0xA0, 0xBF, by rw [if_pos hE0, hE0], fun x => ?_⟩
    simp only [UInt8.reduceToNat]
    omega
  rw [if_neg hE0]
  by_cases hED : b.toNat = 0xED
  · refine ⟨0x80, 0x9F, by rw [if_pos hED, hED], fun x => ?_⟩
    simp only [UInt8.reduceToNat]
    omega
  rw [if_neg hED]
  refine ⟨0x80, 0xBF, by rw [if_pos (by omega)], fun x => ?_⟩
  simp only [UInt8.reduceToNat]
  omega

/-- The bounds of the second of four bytes keep out code points that three bytes hold and numbers beyond the last one. -/
theorem lead?_of_four {b : UInt8} (hlo : 0xF0 ≤ b.toNat) (hhi : b.toNat ≤ 0xF4) :
    ∃ lo hi, lead? b = some ⟨3, lo, hi, b.toNat - 0xF0⟩ ∧ ∀ x : UInt8, lo ≤ x ∧ x ≤ hi ↔
      (0x80 ≤ x.toNat ∧ x.toNat ≤ 0xBF) ∧ 0x10 ≤ (b.toNat - 0xF0) * 64 + (x.toNat - 0x80) ∧
        (b.toNat - 0xF0) * 64 + (x.toNat - 0x80) < 0x110 := by
  simp only [UInt8.le_iff_toNat_le]
  rw [lead?_eq, if_neg (by omega), if_neg (by omega), if_neg (by omega), if_neg (by omega)]
  by_cases hF0 : b.toNat = 0xF0
  · refine ⟨0x90, 0xBF, by rw [if_pos hF0, hF0], fun x => ?_⟩
    simp only [UInt8.reduceToNat]
    omega
  rw [if_neg hF0]
  by_cases hF4 : b.toNat = 0xF4
  · refine ⟨0x80, 0x8F, by rw [if_neg (by omega), if_pos hF4, hF4], fun x => ?_⟩
    simp only [UInt8.reduceToNat]
    omega
  refine ⟨0x80, 0xBF, by rw [if_pos (by omega)], fun x => ?_⟩
  simp only [UInt8.reduceToNat]
  omega

theorem lead?_eq_none {b : UInt8} (h : b.toNat < 0xC2 ∨ 0xF4 < b.toNat) : lead? b = none := by
  rw [lead?_eq, if_neg (by omega), if_neg (by omega), if_neg (by omega), if_neg (by omega), if_neg (by omega),
    if_neg (by omega), if_neg (by omega)]

theorem tails_cons {lo hi b : UInt8} (h : lo ≤ b ∧ b ≤ hi) (bits seen count : Nat) (rest : List UInt8) :
    tails lo hi bits seen (count + 1) (b :: rest) =
      tails 0x80 0xBF (bits * 64 + (b.toNat - 0x80)) (seen + 1) count rest := by
  rw [tails, if_pos (by simpa using h)]

theorem exists_of_tails {lo hi : UInt8} {bits seen count : Nat} {bytes rest : List UInt8} {c : Char}
    (h : tails lo hi bits seen (count + 1) bytes = (.character c, rest)) :
    ∃ b more, bytes = b :: more ∧ (lo ≤ b ∧ b ≤ hi) ∧
      tails 0x80 0xBF (bits * 64 + (b.toNat - 0x80)) (seen + 1) count more = (.character c, rest) := by
  cases bytes with
  | nil => cases h
  | cons b more =>
    rw [tails] at h
    split at h
    · rename_i hrange
      exact ⟨b, more, rfl, by simpa using hrange, h⟩
    · cases h

theorem toNat_charOfNat {n : Nat} (h : n.isValidChar) : (Char.ofNat n).toNat = n := by
  rw [Char.ofNat, dif_pos h]
  rfl

theorem tail_bounds_iff {b : UInt8} : (0x80 ≤ b ∧ b ≤ 0xBF) ↔ 0x80 ≤ b.toNat ∧ b.toNat ≤ 0xBF := by
  simp only [UInt8.le_iff_toNat_le, UInt8.reduceToNat]

theorem piece_of_lt {b : UInt8} (h : b.toNat < 0x80) (rest : List UInt8) :
    piece b rest = (.character (Char.ofNat b.toNat), rest) := by
  rw [piece, if_pos (UInt8.lt_iff_toNat_lt.2 h)]

theorem piece_of_lead? {b : UInt8} (h : 0x80 ≤ b.toNat) {lead : Lead} (hlead : lead? b = some lead) (rest : List UInt8) :
    piece b rest = tails lead.lo lead.hi lead.bits 1 lead.tails rest := by
  have hge : ¬ b < 0x80 := by
    rw [UInt8.lt_iff_toNat_lt]
    exact Nat.not_lt.2 h
  rw [piece, if_neg hge, hlead]

/-- The bytes that a code point is written with, by their number. -/
inductive Spells : List UInt8 → Nat → Prop where
  | one {a : UInt8} (ha : a.toNat < 0x80) : Spells [a] a.toNat
  | two {a x : UInt8} {n : Nat} (ha : 0xC2 ≤ a.toNat ∧ a.toNat ≤ 0xDF) (hx : 0x80 ≤ x.toNat ∧ x.toNat ≤ 0xBF)
      (hn : n = (a.toNat - 0xC0) * 64 + (x.toNat - 0x80)) : Spells [a, x] n
  | three {a x y : UInt8} {n : Nat} (ha : 0xE0 ≤ a.toNat ∧ a.toNat ≤ 0xEF) (hx : 0x80 ≤ x.toNat ∧ x.toNat ≤ 0xBF)
      (hy : 0x80 ≤ y.toNat ∧ y.toNat ≤ 0xBF)
      (hn : n = ((a.toNat - 0xE0) * 64 + (x.toNat - 0x80)) * 64 + (y.toNat - 0x80))
      (hlong : 0x800 ≤ n) (hvalid : n < 0xD800 ∨ 0xDFFF < n) : Spells [a, x, y] n
  | four {a x y z : UInt8} {n : Nat} (ha : 0xF0 ≤ a.toNat ∧ a.toNat ≤ 0xF4) (hx : 0x80 ≤ x.toNat ∧ x.toNat ≤ 0xBF)
      (hy : 0x80 ≤ y.toNat ∧ y.toNat ≤ 0xBF) (hz : 0x80 ≤ z.toNat ∧ z.toNat ≤ 0xBF)
      (hn : n = (((a.toNat - 0xF0) * 64 + (x.toNat - 0x80)) * 64 + (y.toNat - 0x80)) * 64 + (z.toNat - 0x80))
      (hlong : 0x10000 ≤ n) (hvalid : n < 0x110000) : Spells [a, x, y, z] n

namespace Spells

theorem isValidChar {bytes : List UInt8} {n : Nat} (h : Spells bytes n) : n.isValidChar := by
  rw [Nat.isValidChar]
  cases h <;> omega

theorem piece {bytes : List UInt8} {n : Nat} (h : Spells bytes n) (rest : List UInt8) :
    ∃ b more, bytes = b :: more ∧ Utf8.piece b (more ++ rest) = (.character (Char.ofNat n), rest) := by
  cases h with
  | one ha => exact ⟨_, _, rfl, piece_of_lt ha rest⟩
  | two ha hx hn =>
    refine ⟨_, _, rfl, ?_⟩
    rw [piece_of_lead? (by omega) (lead?_of_two ha.1 ha.2), List.singleton_append, tails_cons (tail_bounds_iff.2 hx), hn]
    rfl
  | three ha hx hy hn hlong hvalid =>
    obtain ⟨lo, hi, hlead, hsecond⟩ := lead?_of_three ha.1 ha.2
    refine ⟨_, _, rfl, ?_⟩
    rw [piece_of_lead? (by omega) hlead, List.cons_append, tails_cons ((hsecond _).2 (by omega)), List.singleton_append,
      tails_cons (tail_bounds_iff.2 hy), hn]
    rfl
  | four ha hx hy hz hn hlong hvalid =>
    obtain ⟨lo, hi, hlead, hsecond⟩ := lead?_of_four ha.1 ha.2
    refine ⟨_, _, rfl, ?_⟩
    rw [piece_of_lead? (by omega) hlead, List.cons_append, tails_cons ((hsecond _).2 (by omega)), List.cons_append,
      tails_cons (tail_bounds_iff.2 hy), List.singleton_append, tails_cons (tail_bounds_iff.2 hz), hn]
    rfl

theorem of_piece {b : UInt8} {rest after : List UInt8} {c : Char} (h : Utf8.piece b rest = (.character c, after)) :
    ∃ bytes n, b :: rest = bytes ++ after ∧ c = Char.ofNat n ∧ Spells bytes n := by
  by_cases hone : b.toNat < 0x80
  · rw [piece_of_lt hone] at h
    cases h
    exact ⟨[b], _, rfl, rfl, .one hone⟩
  have hge : 0x80 ≤ b.toNat := Nat.le_of_not_lt hone
  by_cases htwo : 0xC2 ≤ b.toNat ∧ b.toNat ≤ 0xDF
  · rw [piece_of_lead? hge (lead?_of_two htwo.1 htwo.2)] at h
    obtain ⟨x, more, rfl, hx, h⟩ := exists_of_tails h
    rw [tail_bounds_iff] at hx
    simp only [tails, Prod.mk.injEq, Piece.character.injEq] at h
    obtain ⟨rfl, rfl⟩ := h
    exact ⟨[b, x], _, rfl, rfl, .two htwo hx rfl⟩
  by_cases hthree : 0xE0 ≤ b.toNat ∧ b.toNat ≤ 0xEF
  · obtain ⟨lo, hi, hlead, hsecond⟩ := lead?_of_three hthree.1 hthree.2
    rw [piece_of_lead? hge hlead] at h
    obtain ⟨x, more, rfl, hx, h⟩ := exists_of_tails h
    obtain ⟨y, more, rfl, hy, h⟩ := exists_of_tails h
    rw [hsecond] at hx
    rw [tail_bounds_iff] at hy
    simp only [tails, Prod.mk.injEq, Piece.character.injEq] at h
    obtain ⟨rfl, rfl⟩ := h
    exact ⟨[b, x, y], _, rfl, rfl, .three hthree hx.1 hy rfl (by omega) (by omega)⟩
  by_cases hfour : 0xF0 ≤ b.toNat ∧ b.toNat ≤ 0xF4
  · obtain ⟨lo, hi, hlead, hsecond⟩ := lead?_of_four hfour.1 hfour.2
    rw [piece_of_lead? hge hlead] at h
    obtain ⟨x, more, rfl, hx, h⟩ := exists_of_tails h
    obtain ⟨y, more, rfl, hy, h⟩ := exists_of_tails h
    obtain ⟨z, more, rfl, hz, h⟩ := exists_of_tails h
    rw [hsecond] at hx
    rw [tail_bounds_iff] at hy hz
    simp only [tails, Prod.mk.injEq, Piece.character.injEq] at h
    obtain ⟨rfl, rfl⟩ := h
    exact ⟨[b, x, y, z], _, rfl, rfl, .four hfour hx.1 hy hz rfl (by omega) (by omega)⟩
  · have hnone : lead? b = none := lead?_eq_none (by omega)
    rw [Utf8.piece, if_neg (mt UInt8.lt_iff_toNat_lt.1 hone), hnone] at h
    cases h

/-- A character is spelled by the bytes that it is encoded as. -/
theorem utf8EncodeChar (c : Char) : Spells (String.utf8EncodeChar c) c.toNat := by
  have hvalid : c.toNat.isValidChar := c.valid
  have hvalue : c.val.toNat = c.toNat := rfl
  rw [Nat.isValidChar] at hvalid
  rw [String.utf8EncodeChar, hvalue]
  by_cases hone : c.toNat ≤ 0x7F
  · have hbyte : (UInt8.ofNat c.toNat).toNat = c.toNat := by
      rw [UInt8.toNat_ofNat']
      omega
    rw [if_pos hone]
    have h : Spells [UInt8.ofNat c.toNat] (UInt8.ofNat c.toNat).toNat := .one (by omega)
    rwa [hbyte] at h
  rw [if_neg hone]
  by_cases htwo : c.toNat ≤ 0x7FF
  · rw [if_pos htwo]
    refine .two ?_ ?_ ?_ <;> simp only [UInt8.toNat_ofNat'] <;> omega
  rw [if_neg htwo]
  by_cases hthree : c.toNat ≤ 0xFFFF
  · rw [if_pos hthree]
    refine .three ?_ ?_ ?_ ?_ (by omega) (by omega) <;> simp only [UInt8.toNat_ofNat'] <;> omega
  · rw [if_neg hthree]
    refine .four ?_ ?_ ?_ ?_ ?_ (by omega) (by omega) <;> simp only [UInt8.toNat_ofNat'] <;> omega

theorem eq_utf8EncodeChar {bytes : List UInt8} {n : Nat} (h : Spells bytes n) :
    bytes = String.utf8EncodeChar (Char.ofNat n) := by
  have hvalue : (Char.ofNat n).val.toNat = n := toNat_charOfNat h.isValidChar
  rw [String.utf8EncodeChar, hvalue]
  cases h with
  | one ha =>
    rw [if_pos (by omega), UInt8.ofNat_toNat]
  | two ha hx hn =>
    rw [if_neg (by omega), if_pos (by omega)]
    simp only [List.cons.injEq, and_true, ← UInt8.toNat_inj, UInt8.toNat_ofNat']
    omega
  | three ha hx hy hn hlong hvalid =>
    rw [if_neg (by omega), if_neg (by omega), if_pos (by omega)]
    simp only [List.cons.injEq, and_true, ← UInt8.toNat_inj, UInt8.toNat_ofNat']
    omega
  | four ha hx hy hz hn hlong hvalid =>
    rw [if_neg (by omega), if_neg (by omega), if_neg (by omega)]
    simp only [List.cons.injEq, and_true, ← UInt8.toNat_inj, UInt8.toNat_ofNat']
    omega

/-- A line feed is written by one byte, which no other character is written with. -/
theorem of_lineFeed_mem {bytes : List UInt8} {n : Nat} (h : Spells bytes n) (hmem : 0x0A ∈ bytes) :
    bytes = [0x0A] ∧ n = 0x0A := by
  have hfeed : (0x0A : UInt8).toNat = 0x0A := rfl
  cases h with
  | one ha =>
    cases List.mem_singleton.1 hmem
    exact ⟨rfl, rfl⟩
  | two ha hx hn =>
    simp only [List.mem_cons, List.not_mem_nil, or_false] at hmem
    rcases hmem with rfl | rfl <;> omega
  | three ha hx hy hn hlong hvalid =>
    simp only [List.mem_cons, List.not_mem_nil, or_false] at hmem
    rcases hmem with rfl | rfl | rfl <;> omega
  | four ha hx hy hz hn hlong hvalid =>
    simp only [List.mem_cons, List.not_mem_nil, or_false] at hmem
    rcases hmem with rfl | rfl | rfl | rfl <;> omega

end Spells

theorem lineFeed_mem_utf8EncodeChar_iff {c : Char} : 0x0A ∈ String.utf8EncodeChar c ↔ c = '\n' := by
  constructor
  · intro hmem
    obtain ⟨_, hn⟩ := (Spells.utf8EncodeChar c).of_lineFeed_mem hmem
    rw [← Char.ofNat_toNat c, hn]
  · rintro rfl
    decide

/-- The bytes of characters one after the other. -/
def bytesOf (cs : List Char) : List UInt8 := cs.flatMap String.utf8EncodeChar

theorem bytesOf_cons (c : Char) (cs : List Char) : bytesOf (c :: cs) = String.utf8EncodeChar c ++ bytesOf cs :=
  List.flatMap_cons

theorem bytesOf_append (cs ds : List Char) : bytesOf (cs ++ ds) = bytesOf cs ++ bytesOf ds := List.flatMap_append

theorem lineFeed_mem_bytesOf_iff {cs : List Char} : 0x0A ∈ bytesOf cs ↔ '\n' ∈ cs := by
  simp [bytesOf, lineFeed_mem_utf8EncodeChar_iff]

theorem toList_loop (bytes : ByteArray) (i : Nat) (before : List UInt8) :
    ByteArray.toList.loop bytes i before = before.reverse ++ bytes.data.toList.drop i := by
  fun_induction ByteArray.toList.loop bytes i before with
  | case1 i before hlt ih =>
    have hlength : i < bytes.data.toList.length := hlt
    have hbyte : bytes.get! i = bytes.data.toList[i] := by
      rw [Array.getElem_toList]
      exact getElem!_pos bytes.data i hlt
    rw [ih, List.drop_eq_getElem_cons hlength, hbyte, List.reverse_cons, List.append_assoc, List.singleton_append]
  | case2 i before hge =>
    have hlength : bytes.data.toList.length ≤ i := Nat.le_of_not_lt hge
    rw [List.drop_of_length_le hlength, List.append_nil]

theorem encode_ofList (cs : List Char) : encode (String.ofList cs) = bytesOf cs := by
  rw [encode, String.toUTF8_eq_toByteArray, String.toByteArray_ofList, ByteArray.toList, toList_loop, List.utf8Encode,
    List.toList_data_toByteArray]
  rfl

theorem encode_eq_bytesOf (text : String) : encode text = bytesOf text.toList := by
  rw [← encode_ofList, String.ofList_toList]

theorem pieces_utf8EncodeChar_append (c : Char) (rest : List UInt8) :
    pieces (String.utf8EncodeChar c ++ rest) = .character c :: pieces rest := by
  obtain ⟨b, more, hbytes, hpiece⟩ := (Spells.utf8EncodeChar c).piece rest
  rw [hbytes, List.cons_append, pieces, hpiece, Char.ofNat_toNat]

theorem pieces_bytesOf (cs : List Char) : pieces (bytesOf cs) = cs.map .character := by
  induction cs with
  | nil => rw [bytesOf, List.flatMap_nil, pieces, List.map_nil]
  | cons c cs ih => rw [bytesOf_cons, pieces_utf8EncodeChar_append, ih, List.map_cons]

theorem bytesOf_injective : Function.Injective bytesOf := by
  intro cs ds h
  apply List.map_injective_iff.2 fun c d => Piece.character.inj
  rw [← pieces_bytesOf, h, pieces_bytesOf]

/-- Two characters that some bytes begin with are one character. -/
theorem eq_of_utf8EncodeChar_append_eq {c d : Char} {rest others : List UInt8}
    (h : String.utf8EncodeChar c ++ rest = String.utf8EncodeChar d ++ others) : c = d ∧ rest = others := by
  have hpieces := congrArg pieces h
  rw [pieces_utf8EncodeChar_append, pieces_utf8EncodeChar_append] at hpieces
  obtain ⟨hpiece, _⟩ := List.cons.inj hpieces
  cases hpiece
  exact ⟨rfl, List.append_cancel_left h⟩

/-- Bytes that begin with no character. -/
def Stuck (bytes : List UInt8) : Prop := bytes ≠ [] ∧ ∀ c, ¬ String.utf8EncodeChar c <+: bytes

theorem stuck_of_piece {b : UInt8} {rest : List UInt8} (h : ∀ c, (piece b rest).1 ≠ .character c) :
    Stuck (b :: rest) := by
  refine ⟨List.cons_ne_nil b rest, fun c hc => ?_⟩
  obtain ⟨after, hafter⟩ := hc
  obtain ⟨first, more, hbytes, hpiece⟩ := (Spells.utf8EncodeChar c).piece after
  rw [hbytes, List.cons_append] at hafter
  obtain ⟨rfl, rfl⟩ := List.cons.inj hafter
  exact h _ (congrArg Prod.fst hpiece)

/-- Bytes are characters up to some place, and if that is not their end then decoding fails there. -/
theorem charactersOf_pieces (bytes : List UInt8) (before : Nat) :
    (∃ cs, bytes = bytesOf cs ∧ charactersOf before (pieces bytes) = .ok cs) ∨
      ∃ cs stuck failure, bytes = bytesOf cs ++ stuck ∧ Stuck stuck ∧
        charactersOf before (pieces bytes) = .error failure ∧ failure.validLength = before + (bytesOf cs).length := by
  fun_induction pieces bytes generalizing before with
  | case1 => exact .inl ⟨[], rfl, rfl⟩
  | case2 b rest ih =>
    cases hpiece : piece b rest with
    | mk first after =>
    rw [hpiece] at ih
    cases first with
    | character c =>
      obtain ⟨spelled, n, hbytes, hc, hspells⟩ := Spells.of_piece hpiece
      rw [hspells.eq_utf8EncodeChar, ← hc] at hbytes
      rw [hbytes, charactersOf]
      rcases ih (before + c.utf8Size) with ⟨cs, rfl, hok⟩ | ⟨cs, stuck, failure, rfl, hstuck, herror, hlength⟩
      · refine .inl ⟨c :: cs, (bytesOf_cons c cs).symm, ?_⟩
        rw [hok]
        rfl
      · refine .inr ⟨c :: cs, stuck, failure, ?_, hstuck, ?_, ?_⟩
        · rw [bytesOf_cons, List.append_assoc]
        · rw [herror]
          rfl
        · rw [bytesOf_cons, List.length_append, String.length_utf8EncodeChar, hlength, Nat.add_assoc]
    | malformed length =>
      have hstuck : Stuck (b :: rest) := stuck_of_piece fun c => by rw [hpiece]; exact nofun
      exact .inr ⟨[], _, _, rfl, hstuck, rfl, rfl⟩
    | truncated =>
      have hstuck : Stuck (b :: rest) := stuck_of_piece fun c => by rw [hpiece]; exact nofun
      exact .inr ⟨[], _, _, rfl, hstuck, rfl, rfl⟩

/-- Bytes that are the encoding of a text. -/
def IsText (bytes : List UInt8) : Prop := ∃ text, encode text = bytes

theorem isText_iff {bytes : List UInt8} : IsText bytes ↔ ∃ cs, bytesOf cs = bytes := by
  constructor
  · rintro ⟨text, rfl⟩
    exact ⟨text.toList, (encode_eq_bytesOf text).symm⟩
  · rintro ⟨cs, rfl⟩
    exact ⟨String.ofList cs, encode_ofList cs⟩

/-- The longest text that some bytes begin with. -/
structure LongestText (bytes text : List UInt8) : Prop where
  begins : text <+: bytes
  isText : IsText text
  longest : ∀ other, other <+: bytes → IsText other → other.length ≤ text.length

theorem length_le_of_bytesOf_prefix {cs ds : List Char} {stuck : List UInt8} (hstuck : Stuck stuck)
    (h : bytesOf ds <+: bytesOf cs ++ stuck) : (bytesOf ds).length ≤ (bytesOf cs).length := by
  induction ds generalizing cs with
  | nil => exact Nat.zero_le _
  | cons d ds ih =>
    obtain ⟨rest, hrest⟩ := h
    rw [bytesOf_cons, List.append_assoc] at hrest
    cases cs with
    | nil => exact absurd ⟨_, hrest⟩ (hstuck.2 d)
    | cons c cs =>
      rw [bytesOf_cons, List.append_assoc] at hrest
      obtain ⟨rfl, hmore⟩ := eq_of_utf8EncodeChar_append_eq hrest
      rw [bytesOf_cons, bytesOf_cons, List.length_append, List.length_append]
      exact Nat.add_le_add_left (ih ⟨rest, hmore⟩) _

theorem longestText_of_stuck (cs : List Char) {stuck : List UInt8} (hstuck : Stuck stuck) :
    LongestText (bytesOf cs ++ stuck) (bytesOf cs) where
  begins := List.prefix_append _ _
  isText := isText_iff.2 ⟨cs, rfl⟩
  longest other hbegins htext := by
    obtain ⟨ds, rfl⟩ := isText_iff.1 htext
    exact length_le_of_bytesOf_prefix hstuck hbegins

theorem not_isText_of_stuck (cs : List Char) {stuck : List UInt8} (hstuck : Stuck stuck) :
    ¬ IsText (bytesOf cs ++ stuck) := by
  intro htext
  have hle := (longestText_of_stuck cs hstuck).longest _ (List.prefix_refl _) htext
  have hpos := List.length_pos_iff.2 hstuck.1
  rw [List.length_append] at hle
  omega

theorem decode_cases (bytes : List UInt8) :
    (∃ cs, bytes = bytesOf cs ∧ decode bytes = .ok (String.ofList cs)) ∨
      ∃ cs stuck failure, bytes = bytesOf cs ++ stuck ∧ Stuck stuck ∧ decode bytes = .error failure ∧
        failure.validLength = (bytesOf cs).length := by
  rcases charactersOf_pieces bytes 0 with ⟨cs, hbytes, hok⟩ | ⟨cs, stuck, failure, hbytes, hstuck, herror, hlength⟩
  · refine .inl ⟨cs, hbytes, ?_⟩
    rw [decode, hok]
    rfl
  · refine .inr ⟨cs, stuck, failure, hbytes, hstuck, ?_, by rw [hlength, Nat.zero_add]⟩
    rw [decode, herror]
    rfl

theorem decode_eq_ok_iff {bytes : List UInt8} {text : String} : decode bytes = .ok text ↔ encode text = bytes := by
  rcases decode_cases bytes with ⟨cs, rfl, hok⟩ | ⟨cs, stuck, failure, rfl, hstuck, herror, _⟩
  · rw [hok, encode_eq_bytesOf, bytesOf_injective.eq_iff, Except.ok.injEq]
    constructor
    · rintro rfl
      exact String.toList_ofList
    · rintro rfl
      exact String.ofList_toList
  · rw [herror]
    exact iff_of_false nofun fun henc => not_isText_of_stuck cs hstuck ⟨text, henc⟩

end TextAnnotation.Text.Utf8
