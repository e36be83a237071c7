import Mathlib.Data.List.Basic
import ScriptKinds.Launcher.Host

namespace ScriptKinds

namespace Text

/-! ### Lines of a text -/

/-- A text consists of lines, each with a line feed behind it, or a carriage return
and a line feed.  The last line may do without. -/
inductive LinesOf : List Char → List (List Char) → Prop where
  | none : LinesOf [] []
  | last {line : List Char} (hne : line ≠ []) (hline : '\n' ∉ line) : LinesOf line [line]
  | feed {line text : List Char} {lines : List (List Char)} (hline : '\n' ∉ line)
      (hend : line.getLast? ≠ some '\r') (hlines : LinesOf text lines) :
      LinesOf (line ++ '\n' :: text) (line :: lines)
  | returnFeed {line text : List Char} {lines : List (List Char)} (hline : '\n' ∉ line)
      (hlines : LinesOf text lines) : LinesOf (line ++ '\r' :: '\n' :: text) (line :: lines)

theorem exists_linesOf (text : List Char) : ∃ lines, LinesOf text lines := by
  by_cases hfeed : '\n' ∈ text
  · obtain ⟨line, rest, htext, hline⟩ := List.eq_append_cons_of_mem hfeed
    obtain ⟨lines, hlines⟩ := exists_linesOf rest
    rw [htext]
    by_cases hend : line.getLast? = some '\r'
    · obtain ⟨line, rfl⟩ := List.getLast?_eq_some_iff.mp hend
      rw [List.append_assoc]
      exact ⟨line :: lines, .returnFeed (fun h => hline (List.mem_append_left _ h)) hlines⟩
    · exact ⟨line :: lines, .feed hline hend hlines⟩
  · by_cases hne : text = []
    · rw [hne]
      exact ⟨[], .none⟩
    · exact ⟨[text], .last hne hfeed⟩
termination_by text.length
decreasing_by
  rw [htext, List.length_append, List.length_cons]
  omega

/-! ### Text and bytes -/

theorem toList_loop_eq (bytes : ByteArray) (place : Nat) (before : List UInt8) :
    ByteArray.toList.loop bytes place before =
      before.reverse ++ bytes.data.toList.drop place := by
  fun_induction ByteArray.toList.loop bytes place before with
  | case1 place before hplace ih =>
      have hlength : place < bytes.data.toList.length := hplace
      rw [ih, List.drop_eq_getElem_cons hlength]
      simp [ByteArray.get!, hplace]
  | case2 place before hplace =>
      rw [List.drop_eq_nil_of_le (Nat.le_of_not_lt hplace), List.append_nil]

theorem toList_eq_data (bytes : ByteArray) : bytes.toList = bytes.data.toList := by
  rw [ByteArray.toList, toList_loop_eq]
  rfl

theorem encode_ofList (text : List Char) :
    encode (String.ofList text) = text.flatMap String.utf8EncodeChar := by
  simp [encode, toList_eq_data, List.utf8Encode]

theorem decode?_encode (text : String) : decode? (encode text) = some text := by
  have hbytes : (⟨(encode text).toArray⟩ : ByteArray) = text.toByteArray := by
    apply ByteArray.ext
    simp [encode, toList_eq_data]
  rw [decode?, hbytes, String.fromUTF8?, dif_pos text.isValidUTF8]
  rfl

theorem toNat_eq_of_mem_utf8EncodeChar {c : Char} {b : UInt8} (h : b ∈ String.utf8EncodeChar c)
    (hsmall : b.toNat < 128) : c.toNat = b.toNat := by
  have hcode : c.val.toNat = c.toNat := rfl
  simp only [String.utf8EncodeChar, hcode] at h
  split at h
  · rw [List.mem_singleton] at h
    subst h
    rw [UInt8.toNat_ofNat']
    omega
  · -- The bytes of the other characters have the highest bit set.
    exfalso
    split at h
    · simp only [List.mem_cons, List.not_mem_nil, or_false] at h
      rcases h with rfl | rfl <;> simp only [UInt8.toNat_ofNat'] at hsmall <;> omega
    · split at h
      · simp only [List.mem_cons, List.not_mem_nil, or_false] at h
        rcases h with rfl | rfl | rfl <;> simp only [UInt8.toNat_ofNat'] at hsmall <;> omega
      · simp only [List.mem_cons, List.not_mem_nil, or_false] at h
        rcases h with rfl | rfl | rfl | rfl <;> simp only [UInt8.toNat_ofNat'] at hsmall <;> omega

theorem eq_of_mem_utf8EncodeChar {c other : Char} {b : UInt8} (h : b ∈ String.utf8EncodeChar c)
    (hother : other.toNat = b.toNat) (hsmall : b.toNat < 128) : c = other := by
  apply Char.ext
  apply UInt32.toNat_inj.mp
  exact (toNat_eq_of_mem_utf8EncodeChar h hsmall).trans hother.symm

theorem feed_not_mem_flatMap {line : List Char} (hline : '\n' ∉ line) :
    10 ∉ line.flatMap String.utf8EncodeChar := by
  rw [List.mem_flatMap]
  rintro ⟨c, hc, hbyte⟩
  have hfeed : c = '\n' := eq_of_mem_utf8EncodeChar hbyte rfl (by decide)
  rw [hfeed] at hc
  exact hline hc

theorem getLast?_flatMap_ne {line : List Char} (hend : line.getLast? ≠ some '\r') :
    (line.flatMap String.utf8EncodeChar).getLast? ≠ some 13 := by
  rcases List.eq_nil_or_concat line with rfl | ⟨init, c, rfl⟩
  · simp
  · intro hlast
    rw [List.concat_eq_append, List.flatMap_append, List.flatMap_singleton] at hlast
    have hne : String.utf8EncodeChar c ≠ [] := by
      simp
    rw [List.getLast?_append_of_ne_nil _ hne] at hlast
    have hreturn : c = '\r' :=
      eq_of_mem_utf8EncodeChar (List.mem_of_getLast? hlast) rfl (by decide)
    simp [hreturn] at hend

end Text

namespace Launcher

/-! ### Cutting bytes into lines -/

theorem byteLines_feed {line : List UInt8} (hline : 10 ∉ line) (rest : List UInt8) :
    byteLines (line ++ 10 :: rest) = (line ++ [10]) :: byteLines rest := by
  induction line with
  | nil => simp [byteLines]
  | cons b others ih =>
      rw [List.mem_cons, not_or] at hline
      rw [List.cons_append, byteLines, if_neg (Ne.symm hline.1), ih hline.2]
      rfl

theorem byteLines_last {line : List UInt8} (hne : line ≠ []) (hline : 10 ∉ line) :
    byteLines line = [line] := by
  induction line with
  | nil => exact absurd rfl hne
  | cons b others ih =>
      rw [List.mem_cons, not_or] at hline
      rw [byteLines, if_neg (Ne.symm hline.1)]
      by_cases hothers : others = []
      · subst hothers
        rfl
      · rw [ih hothers hline.2]

theorem stripEnding_feed {line : List UInt8} (hend : line.getLast? ≠ some 13) :
    stripEnding (line ++ [10]) = line := by
  rw [List.getLast?_eq_head?_reverse] at hend
  rw [stripEnding, List.reverse_concat]
  split
  · rename_i rest heq
    rw [(List.cons.inj heq).2] at hend
    exact absurd rfl hend
  · rename_i rest hreturn heq
    rw [← (List.cons.inj heq).2, List.reverse_reverse]
  · rename_i hreturn hfeed
    exact absurd rfl (hfeed line.reverse)

theorem stripEnding_returnFeed (line : List UInt8) : stripEnding (line ++ [13, 10]) = line := by
  simp [stripEnding]

theorem stripEnding_last {line : List UInt8} (hline : 10 ∉ line) : stripEnding line = line := by
  rw [← List.mem_reverse] at hline
  rw [stripEnding]
  split
  · rename_i heq
    rw [heq] at hline
    exact absurd List.mem_cons_self hline
  · rename_i heq
    rw [heq] at hline
    exact absurd List.mem_cons_self hline
  · rfl

theorem streamLines_of_byteLines {bytes part : List UInt8} {line : String} (rest : List UInt8)
    (hbytes : byteLines bytes = part :: byteLines rest)
    (hline : Text.decode? (stripEnding part) = some line) :
    streamLines bytes = line :: streamLines rest := by
  simp [streamLines, hbytes, hline]

theorem streamLines_of_linesOf {text : List Char} {lines : List (List Char)}
    (h : Text.LinesOf text lines) :
    streamLines (Text.encode (String.ofList text)) = lines.map String.ofList := by
  have hdecode (line : List Char) :
      Text.decode? (line.flatMap String.utf8EncodeChar) = some (String.ofList line) := by
    rw [← Text.encode_ofList, Text.decode?_encode]
  have hfeed : String.utf8EncodeChar '\n' = [10] := by decide
  have hreturn : String.utf8EncodeChar '\r' = [13] := by decide
  rw [Text.encode_ofList]
  induction h with
  | none => rfl
  | @last line hne hline =>
      have hbytes := Text.feed_not_mem_flatMap hline
      have hbytesNe : line.flatMap String.utf8EncodeChar ≠ [] := by
        obtain ⟨c, others, rfl⟩ := List.exists_cons_of_ne_nil hne
        simp
      refine streamLines_of_byteLines [] (byteLines_last hbytesNe hbytes) ?_
      rw [stripEnding_last hbytes, hdecode]
  | @feed line text lines hline hend hlines ih =>
      have hbytes := Text.feed_not_mem_flatMap hline
      rw [List.flatMap_append, List.flatMap_cons, hfeed, List.singleton_append, List.map_cons, ← ih]
      refine streamLines_of_byteLines _ (byteLines_feed hbytes _) ?_
      rw [stripEnding_feed (Text.getLast?_flatMap_ne hend), hdecode]
  | @returnFeed line text lines hline hlines ih =>
      have hbytes := Text.feed_not_mem_flatMap hline
      have hbytesReturn : 10 ∉ line.flatMap String.utf8EncodeChar ++ [13] := by
        simpa using hbytes
      rw [List.flatMap_append, List.flatMap_cons, List.flatMap_cons, hfeed, hreturn,
        List.singleton_append, List.singleton_append, List.map_cons, ← ih,
        List.append_cons]
      refine streamLines_of_byteLines _ (byteLines_feed hbytesReturn _) ?_
      rw [List.append_assoc, List.singleton_append, stripEnding_returnFeed, hdecode]

theorem exists_linesOf_streamLines (text : String) :
    ∃ lines, Text.LinesOf text.toList lines ∧
      streamLines (Text.encode text) = lines.map String.ofList := by
  obtain ⟨lines, hlines⟩ := Text.exists_linesOf text.toList
  refine ⟨lines, hlines, ?_⟩
  rw [← streamLines_of_linesOf hlines, String.ofList_toList]

end Launcher

end ScriptKinds
