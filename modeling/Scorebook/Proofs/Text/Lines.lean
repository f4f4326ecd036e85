import Mathlib.Data.List.Basic
import Mathlib.Data.Nat.Notation
import Scorebook.Text.Lines

/-!
# Lines of texts and of their bytes

A text is cut at its line feeds, and a carriage return before a line feed goes with it. No byte of
an encoded character looks like one of these two characters unless it is that character, so the
bytes of a text are cut into the bytes of its lines.
-/

namespace Scorebook

namespace Lines

section Cut

variable {α : Type} {isFeed isReturn : α → Bool}

/-- Without a line feed the line at hand grows. -/
theorem cut_append {line : List α} (hline : ∀ c ∈ line, isFeed c = false) (held rest : List α) :
    cut isFeed isReturn held (line ++ rest) = cut isFeed isReturn (line.reverse ++ held) rest := by
  induction line generalizing held with
  | nil => rfl
  | cons c line ih =>
    obtain ⟨hc, hline⟩ := List.forall_mem_cons.mp hline
    rw [List.cons_append, cut, if_neg (by simp [hc]), ih hline, List.reverse_cons,
      List.append_assoc]
    rfl

/-- At the end of a text the line at hand is a line unless it is empty. -/
theorem cut_nil {held : List α} (hne : held ≠ []) :
    cut isFeed isReturn held [] = [held.reverse] := by
  cases held with
  | nil => exact absurd rfl hne
  | cons c held => rfl

/-- A line without a carriage return at its end stays whole. -/
theorem dropReturn_eq_self {held : List α} (hhead : ∀ c ∈ held.head?, isReturn c = false) :
    dropReturn isReturn held = held := by
  cases held with
  | nil => rfl
  | cons c held => rw [dropReturn, if_neg (by simp [hhead c rfl])]

end Cut

/-- Some lines are those of a text. -/
inductive AreLinesOf : List (List Char) → List Char → Prop
  | none : AreLinesOf [] []
  /-- What follows the last line feed is a line unless it is empty. -/
  | last {line : List Char} : line ≠ [] → '\n' ∉ line → AreLinesOf [line] line
  | feed {line rest : List Char} {lines : List (List Char)} : '\n' ∉ line →
      line.getLast? ≠ some '\r' → AreLinesOf lines rest →
      AreLinesOf (line :: lines) (line ++ '\n' :: rest)
  /-- One carriage return before a line feed is no part of the line. -/
  | returnFeed {line rest : List Char} {lines : List (List Char)} : '\n' ∉ line →
      AreLinesOf lines rest → AreLinesOf (line :: lines) (line ++ '\r' :: '\n' :: rest)

/-- A line of a text stays whole if its last character is no carriage return. -/
theorem dropReturn_of_head?_ne {held : List Char} (hreturn : held.head? ≠ some '\r') :
    dropReturn (· = '\r') held = held :=
  dropReturn_eq_self fun _ hc => decide_eq_false fun heq => hreturn (heq ▸ hc)

/-- A line feed ends the line at hand. -/
theorem cut_lineFeed (held rest : List Char) :
    cut (· = '\n') (· = '\r') held ('\n' :: rest) =
      (dropReturn (· = '\r') held).reverse :: linesOfText rest := by
  rw [cut, if_pos (decide_eq_true rfl), linesOfText]

/-- The lines into which a text is cut, with a line at hand that holds no line feed. -/
theorem areLinesOf_cut {held : List Char} (hheld : '\n' ∉ held) (text : List Char) :
    AreLinesOf (cut (· = '\n') (· = '\r') held text) (held.reverse ++ text) := by
  induction text generalizing held with
  | nil =>
    by_cases hne : held = []
    · subst hne
      exact .none
    · rw [cut_nil hne, List.append_nil]
      exact .last (mt List.reverse_eq_nil_iff.mp hne) (mt List.mem_reverse.mp hheld)
  | cons c text ih =>
    by_cases hfeed : c = '\n'
    · subst hfeed
      have hrest : AreLinesOf (linesOfText text) text := ih List.not_mem_nil
      rw [cut_lineFeed]
      by_cases hreturn : held.head? = some '\r'
      · obtain ⟨line, rfl⟩ := List.head?_eq_some_iff.mp hreturn
        have hline : '\n' ∉ line.reverse := fun hmem =>
          hheld (List.mem_cons_of_mem _ (List.mem_reverse.mp hmem))
        rw [List.reverse_cons, List.append_assoc]
        exact .returnFeed hline hrest
      · rw [dropReturn_of_head?_ne hreturn]
        exact .feed (mt List.mem_reverse.mp hheld) (by rwa [List.getLast?_reverse]) hrest
    · have hgrown : '\n' ∉ c :: held := by
        rw [List.mem_cons, not_or]
        exact ⟨Ne.symm hfeed, hheld⟩
      have hrest := ih hgrown
      rw [List.reverse_cons, List.append_assoc] at hrest
      rw [cut, if_neg (by simpa using hfeed)]
      exact hrest

/-- A text is cut into its lines. -/
theorem areLinesOf_linesOfText (text : List Char) : AreLinesOf (linesOfText text) text :=
  areLinesOf_cut List.not_mem_nil text

/-- A text has no other lines than those into which it is cut. -/
theorem AreLinesOf.eq {lines : List (List Char)} {text : List Char} (h : AreLinesOf lines text) :
    linesOfText text = lines := by
  have hline {line : List Char} (hfeed : '\n' ∉ line) (rest : List Char) :
      linesOfText (line ++ rest) = cut (· = '\n') (· = '\r') line.reverse rest := by
    have hnone : ∀ c ∈ line, decide (c = '\n') = false :=
      fun c hc => decide_eq_false fun heq => hfeed (heq ▸ hc)
    rw [linesOfText, cut_append hnone, List.append_nil]
  induction h with
  | none => rfl
  | @last line hne hfeed =>
    have hcut := hline hfeed []
    rwa [List.append_nil, cut_nil (mt List.reverse_eq_nil_iff.mp hne), List.reverse_reverse] at hcut
  | @feed line rest lines hfeed hreturn hrest ih =>
    rw [← List.head?_reverse] at hreturn
    rw [hline hfeed, cut_lineFeed, dropReturn_of_head?_ne hreturn, List.reverse_reverse, ih]
  | @returnFeed line rest lines hfeed hrest ih =>
    -- The carriage return counts as a character of the line until the line feed comes.
    have hgrown : '\n' ∉ line ++ ['\r'] := by simp [hfeed]
    have hcut := hline hgrown ('\n' :: rest)
    rw [cut_lineFeed, List.reverse_append, ih, List.append_assoc] at hcut
    simpa [dropReturn] using hcut

section Bytes

open String (utf8EncodeChar)

/-- A byte of an encoded character that is a character by itself is that character. -/
theorem eq_of_mem_utf8EncodeChar {c : Char} {byte : UInt8} (hmem : byte ∈ utf8EncodeChar c)
    (hbyte : byte.toNat < 128) : c.toNat = byte.toNat := by
  have hvalue : c.val.toNat = c.toNat := rfl
  unfold utf8EncodeChar at hmem
  simp only [hvalue] at hmem
  split_ifs at hmem
  all_goals
    simp only [List.mem_cons, List.not_mem_nil, or_false] at hmem
    rcases hmem with rfl | rfl | rfl | rfl
  all_goals
    rw [UInt8.toNat_ofNat'] at hbyte ⊢
    omega

/-- The bytes of a text. -/
def bytesOf (text : List Char) : List UInt8 := text.flatMap utf8EncodeChar

/-- A line feed is encoded as itself, and so is a carriage return. -/
theorem encoded_line_ends : utf8EncodeChar '\n' = [10] ∧ utf8EncodeChar '\r' = [13] := by
  decide

/-- A character is encoded without the byte of another character that is a byte by itself. -/
theorem decide_byte_eq_false_of_ne {c other : Char} {code : UInt8}
    (hcode : other.toNat = code.toNat) (hbyte : code.toNat < 128) (hc : c ≠ other) :
    ∀ byte ∈ utf8EncodeChar c, decide (byte = code) = false := by
  intro byte hmem
  refine decide_eq_false fun heq => hc (Char.toNat_inj.mp ?_)
  rw [heq] at hmem
  rw [eq_of_mem_utf8EncodeChar hmem hbyte, hcode]

/-- The bytes of a line at hand and one more character. -/
theorem reverse_bytesOf_cons (c : Char) (held : List Char) :
    (bytesOf (c :: held).reverse).reverse =
      (utf8EncodeChar c).reverse ++ (bytesOf held.reverse).reverse := by
  simp [bytesOf]

/-- A carriage return is dropped from the bytes of a line exactly if it is dropped from the line. -/
theorem dropReturn_bytesOf (held : List Char) :
    (dropReturn (· = 13) (bytesOf held.reverse).reverse).reverse =
      bytesOf (dropReturn (· = '\r') held).reverse := by
  cases held with
  | nil => rfl
  | cons c held =>
    by_cases hreturn : c = '\r'
    · subst hreturn
      rw [reverse_bytesOf_cons, encoded_line_ends.2]
      simp [dropReturn]
    · have hbytes : ∀ byte ∈ (bytesOf (c :: held).reverse).reverse.head?,
          decide (byte = 13) = false := by
        rw [reverse_bytesOf_cons, List.head?_append_of_ne_nil _ (by simp), List.head?_reverse]
        exact fun byte hbyte => decide_byte_eq_false_of_ne rfl (by decide) hreturn byte
          (List.mem_of_mem_getLast? hbyte)
      have hheld : (c :: held).head? ≠ some '\r' := by simpa using hreturn
      rw [dropReturn_eq_self hbytes, dropReturn_of_head?_ne hheld, List.reverse_reverse]

/-- The bytes of a text are cut into the bytes of its lines. -/
theorem cut_bytesOf (held text : List Char) :
    cut (· = 10) (· = 13) (bytesOf held.reverse).reverse (bytesOf text) =
      (cut (· = '\n') (· = '\r') held text).map bytesOf := by
  induction text generalizing held with
  | nil =>
    cases held with
    | nil => rfl
    | cons c held =>
      have hne : (bytesOf (c :: held).reverse).reverse ≠ [] := by
        rw [reverse_bytesOf_cons]
        simp
      exact (cut_nil hne).trans (by simp [cut])
  | cons c text ih =>
    by_cases hfeed : c = '\n'
    · subst hfeed
      have hbytes : bytesOf ('\n' :: text) = 10 :: bytesOf text := rfl
      have hrest := ih []
      rw [hbytes, cut, if_pos (decide_eq_true rfl), dropReturn_bytesOf, cut_lineFeed,
        List.map_cons, linesOfText, ← hrest]
      rfl
    · have hbytes : bytesOf (c :: text) = utf8EncodeChar c ++ bytesOf text := rfl
      have hnone : ∀ byte ∈ utf8EncodeChar c, decide (byte = 10) = false :=
        decide_byte_eq_false_of_ne rfl (by decide) hfeed
      rw [hbytes, cut_append hnone, ← reverse_bytesOf_cons, ih, cut, if_neg (by simpa using hfeed)]

/-- An array lists the bytes that are left behind those that are listed. -/
theorem toList_loop (listed rest : List UInt8) :
    ByteArray.toList.loop ⟨(listed ++ rest).toArray⟩ listed.length listed.reverse =
      listed ++ rest := by
  induction rest generalizing listed with
  | nil =>
    rw [ByteArray.toList.loop, if_neg (by simp [ByteArray.size]), List.reverse_reverse,
      List.append_nil]
  | cons byte rest ih =>
    have hsplit : listed ++ byte :: rest = (listed ++ [byte]) ++ rest := by simp
    have hnext := ih (listed ++ [byte])
    rw [List.length_append, List.reverse_append, ← hsplit] at hnext
    rw [ByteArray.toList.loop, if_pos (by simp [ByteArray.size])]
    refine Eq.trans ?_ hnext
    simp [ByteArray.get!]

/-- The bytes of a text are those of its characters. -/
theorem toUTF8_eq (text : String) : text.toUTF8 = ⟨(bytesOf text.toList).toArray⟩ := by
  have hbytes : text.toUTF8 = (bytesOf text.toList).toByteArray := String.utf8Encode_toList.symm
  rw [hbytes]
  exact ByteArray.ext (Array.toList_inj.mp List.toList_data_toByteArray)

/-- The bytes of a text are listed one after another. -/
theorem toList_toUTF8 (text : String) : text.toUTF8.toList = bytesOf text.toList := by
  rw [toUTF8_eq]
  exact toList_loop [] (bytesOf text.toList)

/-- The bytes of a text are a well-formed encoding of it. -/
theorem fromUTF8?_bytesOf (text : List Char) :
    String.fromUTF8? ⟨(bytesOf text).toArray⟩ = some (String.ofList text) := by
  have hbytes := toUTF8_eq (String.ofList text)
  rw [String.toList_ofList] at hbytes
  rw [← hbytes]
  exact dif_pos (String.ofList text).isValidUTF8

end Bytes

end Lines

/-- The bytes of a text are cut into the lines of the text. -/
theorem linesOfBytes_toUTF8 (text : String) :
    linesOfBytes text.toUTF8 =
      (linesOfText text.toList).map fun line => some (String.ofList line) := by
  have hcut := Lines.cut_bytesOf [] text.toList
  rw [linesOfBytes, Lines.toList_toUTF8, linesOfText]
  refine (congrArg _ hcut).trans ?_
  rw [List.map_map]
  exact List.map_congr_left fun line _ => Lines.fromUTF8?_bytesOf line

end Scorebook
