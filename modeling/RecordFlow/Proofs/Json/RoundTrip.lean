import Mathlib.Tactic.SplitIfs
import RecordFlow.Proofs.Json.FloatReading

/-!
# JSON text is read back

`read?_chars` says that the text of a JSON value reads as that value, but with every number that is
no integer as it is read (`reread`), since decimal digits are not always rounded back to where they
came from. The integers have to be in the range that the reader takes for integers (`Readable`), and
the value must be no deeper than the reader goes. The text of a value holds no line break
(`newline_not_mem_chars`).
-/

namespace RecordFlow.Json

/-! ### Strings -/

theorem hexCode?_low {n : Nat} (h : n < 0x20) :
    hexCode? '0' '0' (Nat.digitChar (n / 16)) (Nat.digitChar (n % 16)) = some n := by
  have all : ∀ n < 0x20,
      hexCode? '0' '0' (Nat.digitChar (n / 16)) (Nat.digitChar (n % 16)) = some n := by decide
  exact all n h

theorem readString_plain {c : Char} (hq : c ≠ '"') (hs : c ≠ '\\') (hc : 0x20 ≤ c.toNat)
    (cs : List Char) :
    readString (c :: cs) =
      (readString cs).bind fun (parts, rest) => some (.char c :: parts, rest) := by
  have hlow : ¬ c.toNat < 0x20 := by omega
  rw [readString, if_neg (by simp [hlow, hs])]
  · rfl
  · exact hq
  · exact fun a b d e rest h _ => hs h
  · exact fun e rest h _ => hs h

theorem readString_escapeChar (c : Char) (cs : List Char) :
    readString (escapeChar c ++ cs) =
      (readString cs).bind fun (parts, rest) => some (.char c :: parts, rest) := by
  unfold escapeChar
  split
  -- the short escapes are read by their letter
  all_goals try rfl
  next hq hs hb hf hn hr ht =>
    split
    · next h =>
      have hcode : StringPart.ofCode c.toNat = .char c := by
        have h1 : ¬ 0xD800 ≤ c.toNat := by omega
        simp [StringPart.ofCode, h1, Char.ofNat_toNat]
      simp [readString, hexCode?_low h, hcode]
    · next h => exact readString_plain hq hs (by omega) cs

/-- The characters of a string are read back up to its closing quote. -/
theorem readString_flatMap_escapeChar (cs rest : List Char) :
    readString (cs.flatMap escapeChar ++ '"' :: rest) = some (cs.map .char, rest) := by
  induction cs with
  | nil => rfl
  | cons c cs ih =>
    rw [List.flatMap_cons, List.append_assoc, readString_escapeChar, ih]
    rfl

theorem joinHalves_map_char (cs : List Char) : joinHalves (cs.map .char) = some cs := by
  induction cs with
  | nil => rfl
  | cons c cs ih => rw [List.map_cons, joinHalves, ih]; rfl

/-! ### Values and what they are read as -/

mutual

/-- Integers are in the range that the reader keeps exact, and all other numbers are finite. -/
def Readable : Json → Prop
  | .int n => -2 ^ 63 ≤ n ∧ n < 2 ^ 64
  | .float x => x.isFinite
  | .array elements => ElementsReadable elements
  | .object members => MembersReadable members
  | _ => True

/-- Every element is readable. -/
def ElementsReadable : List Json → Prop
  | [] => True
  | j :: rest => Readable j ∧ ElementsReadable rest

/-- Every member is readable. -/
def MembersReadable : List (String × Json) → Prop
  | [] => True
  | (_, j) :: rest => Readable j ∧ MembersReadable rest

end

mutual

/-- The value with every number that is no integer as its text is read. -/
def reread : Json → Json
  | .float x => .float x.reread
  | .array elements => .array (rereadElements elements)
  | .object members => .object (rereadMembers members)
  | j => j

/-- The elements as their texts are read. -/
def rereadElements : List Json → List Json
  | [] => []
  | j :: rest => reread j :: rereadElements rest

/-- The members as their texts are read. -/
def rereadMembers : List (String × Json) → List (String × Json)
  | [] => []
  | (name, j) :: rest => (name, reread j) :: rereadMembers rest

end

mutual

/-- How deep arrays and objects are nested. -/
def depth : Json → Nat
  | .array elements => elementsDepth elements + 1
  | .object members => membersDepth members + 1
  | _ => 0

/-- The depth of the deepest element. -/
def elementsDepth : List Json → Nat
  | [] => 0
  | j :: rest => max (depth j) (elementsDepth rest)

/-- The depth of the deepest member. -/
def membersDepth : List (String × Json) → Nat
  | [] => 0
  | (_, j) :: rest => max (depth j) (membersDepth rest)

end

mutual

theorem depth_reread : ∀ j : Json, j.reread.depth = j.depth
  | .null | .bool _ | .int _ | .float _ | .string _ => rfl
  | .array elements => congrArg (· + 1) (elementsDepth_rereadElements elements)
  | .object members => congrArg (· + 1) (membersDepth_rereadMembers members)

theorem elementsDepth_rereadElements : ∀ elements : List Json,
    elementsDepth (rereadElements elements) = elementsDepth elements
  | [] => rfl
  | j :: elements => by
    rw [rereadElements, elementsDepth, depth_reread j, elementsDepth_rereadElements elements,
      elementsDepth]

theorem membersDepth_rereadMembers : ∀ members : List (String × Json),
    membersDepth (rereadMembers members) = membersDepth members
  | [] => rfl
  | (_, j) :: members => by
    rw [rereadMembers, membersDepth, depth_reread j, membersDepth_rereadMembers members,
      membersDepth]

end

/-! ### Numbers -/

/-- The numeral that an integer is written as. -/
def intNumeral (n : Int) : Numeral :=
  ⟨n < 0, Nat.toDigits 10 n.natAbs, none, none⟩

theorem number?_intNumeral {n : Int} (hlow : -2 ^ 63 ≤ n) (hhigh : n < 2 ^ 64) :
    (intNumeral n).number? = some (.int n) := by
  have hlt : Nat.ofDigitChars 10 (Nat.toDigits 10 n.natAbs) 0 < 2 ^ 64 := by
    rw [Nat.ofDigitChars_ten_toDigits]
    omega
  have hsig : (intNumeral n).significand = (n.natAbs, 0) := by
    simp [intNumeral, Numeral.significand, absorb_of_lt hlt, absorb, Numeral.writtenExponent]
  by_cases hneg : n < 0
  · have hpos : decide (0 < n.natAbs) = true := decide_eq_true (by omega)
    have hle : decide (n.natAbs ≤ 2 ^ 63) = true := decide_eq_true (by omega)
    simp only [Numeral.number?, hsig]
    rw [if_neg (by simp [intNumeral, hneg]), hpos, hle, if_pos (by simp [intNumeral])]
    congr 2
    omega
  · simp only [Numeral.number?, hsig]
    rw [if_pos (by simp [intNumeral, hneg])]
    congr 2
    omega

theorem chars_intNumeral (n : Int) : (intNumeral n).chars = intChars n := by
  unfold intNumeral Numeral.chars intChars
  by_cases hneg : n < 0 <;> simp [hneg, Numeral.fractionChars, Numeral.exponentChars]

theorem isWritten_intNumeral (n : Int) : (intNumeral n).IsWritten := by
  refine ⟨?_, by simp [intNumeral], by simp [intNumeral]⟩
  rcases Nat.eq_zero_or_pos n.natAbs with hzero | hpos
  · exact .inl (by rw [intNumeral, hzero]; rfl)
  · exact .inr ⟨areDigits_toDigits _, head?_toDigits_ne hpos⟩

/-! ### Values -/

/-- What begins like a numeral is read as one. -/
theorem readValue_of_head {cs tail : List Char} {c : Char} (h : skipGap cs = c :: tail)
    (hc : c = '-' ∨ c.isDigit) (fuel : Nat) :
    readValue (fuel + 1) cs = (readNumeral (c :: tail)).map fun (n, rest) => (.number n, rest) := by
  have hne : c ≠ 'n' ∧ c ≠ 't' ∧ c ≠ 'f' ∧ c ≠ '"' ∧ c ≠ '[' ∧ c ≠ '{' := by
    refine ⟨?_, ?_, ?_, ?_, ?_, ?_⟩ <;> rintro rfl <;> rcases hc with hc | hc <;> cases hc
  simp [readValue, h, hne]

theorem skipGap_cons_of_not_gap {c : Char} (h : isGap c = false) (cs : List Char) :
    skipGap (c :: cs) = c :: cs := by
  simp [skipGap, h]

theorem isGap_of_numeralHead {c : Char} (h : c = '-' ∨ c.isDigit) : isGap c = false := by
  rw [Bool.eq_false_iff]
  intro hg
  simp only [isGap, Bool.or_eq_true, beq_iff_eq] at hg
  rcases hg with ((rfl | rfl) | rfl) | rfl <;> rcases h with h | h <;> cases h

/-- The reader takes a text in front of another for a document that means a value as it is read, and
leaves the other text. -/
def ReadAs (fuel : Nat) (cs rest : List Char) (j : Json) : Prop :=
  ∃ w, readValue fuel (cs ++ rest) = some (w, rest) ∧ ∀ d, depth j ≤ d → w.value? d = some j.reread

theorem readAs_numeral {n : Numeral} (hn : n.IsWritten) {j : Json}
    (hj : n.number? = some j.reread) (fuel : Nat) {rest : List Char} (hr : Stops rest) :
    ReadAs (fuel + 1) n.chars rest j := by
  have hread := Numeral.readNumeral_append hn hr
  obtain ⟨c, cs, hcs, hc⟩ := hn.exists_chars_eq_cons
  refine ⟨.number n, ?_, fun d _ => hj⟩
  rw [hcs, List.cons_append] at hread ⊢
  rw [readValue_of_head (skipGap_cons_of_not_gap (isGap_of_numeralHead hc) _) hc, hread]
  rfl

theorem readAs_string (s : String) (fuel : Nat) (rest : List Char) :
    ReadAs (fuel + 1) (stringChars s) rest (.string s) := by
  refine ⟨.string (s.toList.map .char), ?_, fun d _ => ?_⟩
  · have hread := readString_flatMap_escapeChar s.toList rest
    simp [stringChars, readValue, skipGap, isGap, hread]
  · simp [Written.value?, joinHalves_map_char, reread]

/-! ### Arrays and objects -/

variable {fuel : Nat} {cs tail rest : List Char} {w : Written}

theorem skipGap_ne_bracket {r : Written × List Char} (h : readValue fuel cs = some r)
    (tail : List Char) : skipGap cs ≠ ']' :: tail := by
  intro hs
  cases fuel with
  | zero => cases h
  | succ fuel =>
    rw [readValue, hs] at h
    cases h

theorem readElements_of_close (h : readValue fuel cs = some (w, ']' :: rest)) :
    readElements (fuel + 1) cs = some ([w], rest) := by
  simp [readElements, h, skipGap_cons_of_not_gap, isGap]

theorem readElements_of_comma {ws : List Written} (h : readValue fuel cs = some (w, ',' :: tail))
    (htail : readElements fuel tail = some (ws, rest)) :
    readElements (fuel + 1) cs = some (w :: ws, rest) := by
  simp [readElements, h, skipGap_cons_of_not_gap, isGap, htail]

theorem readValue_array {ws : List Written} (h : readElements fuel cs = some (ws, rest)) :
    readValue (fuel + 1) ('[' :: cs) = some (.array ws, rest) := by
  -- elements have been read, so the array is not closed at once
  have hne : ∀ tail, skipGap cs ≠ ']' :: tail := by
    intro tail
    cases fuel with
    | zero => cases h
    | succ fuel =>
      simp only [readElements, Option.bind_eq_bind, Option.bind_eq_some_iff] at h
      obtain ⟨r, hr, -⟩ := h
      exact skipGap_ne_bracket hr tail
  rw [readValue, skipGap_cons_of_not_gap rfl]
  simp only [h]
  rfl

theorem readMembers_of_close {name : String} (h : readValue fuel cs = some (w, '\x7d' :: rest)) :
    readMembers (fuel + 1) (stringChars name ++ ':' :: cs) =
      some ([(name.toList.map .char, w)], rest) := by
  have hname := readString_flatMap_escapeChar name.toList (':' :: cs)
  simp [readMembers, stringChars, skipGap_cons_of_not_gap, isGap, hname, h]

theorem readMembers_of_comma {name : String} {ms : List (List StringPart × Written)}
    (h : readValue fuel cs = some (w, ',' :: tail))
    (htail : readMembers fuel tail = some (ms, rest)) :
    readMembers (fuel + 1) (stringChars name ++ ':' :: cs) =
      some ((name.toList.map .char, w) :: ms, rest) := by
  have hname := readString_flatMap_escapeChar name.toList (':' :: cs)
  simp [readMembers, stringChars, skipGap_cons_of_not_gap, isGap, hname, h, htail]

theorem readValue_object {ms : List (List StringPart × Written)}
    (h : readMembers fuel cs = some (ms, rest)) :
    readValue (fuel + 1) ('\x7b' :: cs) = some (.object ms, rest) := by
  -- a member begins with a quote, so the object is not closed at once
  have hne : ∀ tail, skipGap cs ≠ '\x7d' :: tail := by
    intro tail hs
    cases fuel with
    | zero => cases h
    | succ fuel =>
      rw [readMembers, hs] at h
      cases h
  rw [readValue, skipGap_cons_of_not_gap rfl]
  simp only [h]
  rfl

theorem elementChars_cons (j j' : Json) (elements : List Json) :
    elementChars (j :: j' :: elements) = j.chars ++ ',' :: elementChars (j' :: elements) := by
  rw [elementChars]
  simp

theorem memberChars_cons (name : String) (j : Json) (member : String × Json)
    (members : List (String × Json)) :
    memberChars ((name, j) :: member :: members) =
      stringChars name ++ ':' :: (j.chars ++ ',' :: memberChars (member :: members)) := by
  rw [memberChars]
  simp

-- Nested calls come at most two at a time for each character, one for a value and one for the list
-- it stands in, hence the fuel of twice the length.
mutual

theorem readAs_chars : ∀ (j : Json), j.Readable → ∀ (fuel : Nat) (rest : List Char),
    2 * j.chars.length ≤ fuel → Stops rest → ReadAs (fuel + 1) j.chars rest j
  | .null, _, fuel, rest, _, _ => ⟨.null, rfl, fun _ _ => rfl⟩
  | .bool true, _, fuel, rest, _, _ => ⟨.bool true, rfl, fun _ _ => rfl⟩
  | .bool false, _, fuel, rest, _, _ => ⟨.bool false, rfl, fun _ _ => rfl⟩
  | .int n, h, fuel, rest, _, hr => by
    rw [chars, ← chars_intNumeral]
    exact readAs_numeral (j := .int n) (isWritten_intNumeral n) (number?_intNumeral h.1 h.2) fuel hr
  | .float x, h, fuel, rest, _, hr => by
    rw [chars, Binary64.text_eq_chars h]
    exact readAs_numeral (j := .float x) (Binary64.isWritten_numeral h) (Binary64.number?_numeral h)
      fuel hr
  | .string s, _, fuel, rest, _, _ => readAs_string s fuel rest
  | .array [], _, fuel, rest, _, _ => by
    refine ⟨.array [], rfl, fun d hd => ?_⟩
    have hd : d ≠ 0 := by simp only [depth] at hd; omega
    simp [Written.value?, hd, Written.elementValues?, reread, rereadElements]
  | .array (j :: elements), h, fuel + 1, rest, hf, _ => by
    obtain ⟨ws, hread, hvalues⟩ := readElements_chars j elements h fuel rest
      (by simp only [chars, List.length_cons, List.length_append] at hf; omega)
    refine ⟨.array ws, ?_, fun d hd => ?_⟩
    · simpa [chars] using readValue_array hread
    · simp only [depth] at hd
      have hd' : d ≠ 0 := by omega
      simp [Written.value?, hd', hvalues (d - 1) (by omega), reread]
  | .object [], _, fuel, rest, _, _ => by
    refine ⟨.object [], rfl, fun d hd => ?_⟩
    have hd : d ≠ 0 := by simp only [depth] at hd; omega
    simp [Written.value?, hd, Written.memberValues?, reread, rereadMembers]
  | .object ((name, j) :: members), h, fuel + 1, rest, hf, _ => by
    obtain ⟨ms, hread, hvalues⟩ := readMembers_chars name j members h fuel rest
      (by simp only [chars, List.length_cons, List.length_append] at hf; omega)
    refine ⟨.object ms, ?_, fun d hd => ?_⟩
    · simpa [chars] using readValue_object hread
    · simp only [depth] at hd
      have hd' : d ≠ 0 := by omega
      simp [Written.value?, hd', hvalues (d - 1) (by omega), reread]

theorem readElements_chars : ∀ (j : Json) (elements : List Json), ElementsReadable (j :: elements) →
    ∀ (fuel : Nat) (rest : List Char), 2 * (elementChars (j :: elements)).length + 1 ≤ fuel →
    ∃ ws, readElements (fuel + 1) (elementChars (j :: elements) ++ ']' :: rest) = some (ws, rest) ∧
      ∀ d, elementsDepth (j :: elements) ≤ d →
        Written.elementValues? d ws = some (rereadElements (j :: elements))
  | j, [], h, fuel + 1, rest, hf => by
    obtain ⟨w, hread, hvalue⟩ := readAs_chars j h.1 fuel (']' :: rest)
      (by simp only [elementChars] at hf; omega) (stops_cons rfl rest)
    refine ⟨[w], readElements_of_close hread, fun d hd => ?_⟩
    simp only [elementsDepth] at hd
    simp [Written.elementValues?, hvalue d (by omega), rereadElements]
  | j, j' :: elements, h, fuel + 1, rest, hf => by
    obtain ⟨ws, hreads, hvalues⟩ := readElements_chars j' elements h.2 fuel rest
      (by simp only [elementChars, List.length_append, List.length_cons] at hf ⊢; omega)
    obtain ⟨w, hread, hvalue⟩ := readAs_chars j h.1 fuel
      (',' :: (elementChars (j' :: elements) ++ ']' :: rest))
      (by simp only [elementChars, List.length_append, List.length_cons] at hf ⊢; omega)
      (stops_cons rfl _)
    refine ⟨w :: ws, ?_, fun d hd => ?_⟩
    · rw [elementChars_cons, List.append_assoc, List.cons_append]
      exact readElements_of_comma hread hreads
    · rw [elementsDepth] at hd
      rw [rereadElements]
      simp [Written.elementValues?, hvalue d (by omega), hvalues d (by omega)]

theorem readMembers_chars : ∀ (name : String) (j : Json) (members : List (String × Json)),
    MembersReadable ((name, j) :: members) →
    ∀ (fuel : Nat) (rest : List Char), 2 * (memberChars ((name, j) :: members)).length + 1 ≤ fuel →
    ∃ ms, readMembers (fuel + 1) (memberChars ((name, j) :: members) ++ '\x7d' :: rest) =
        some (ms, rest) ∧
      ∀ d, membersDepth ((name, j) :: members) ≤ d →
        Written.memberValues? d ms = some (rereadMembers ((name, j) :: members))
  | name, j, [], h, fuel + 1, rest, hf => by
    obtain ⟨w, hread, hvalue⟩ := readAs_chars j h.1 fuel ('\x7d' :: rest)
      (by simp only [memberChars, List.length_append, List.length_cons] at hf; omega)
      (stops_cons rfl rest)
    refine ⟨[(name.toList.map .char, w)], ?_, fun d hd => ?_⟩
    · rw [memberChars, List.append_assoc, List.cons_append]
      exact readMembers_of_close hread
    · simp only [membersDepth] at hd
      simp [Written.memberValues?, joinHalves_map_char, hvalue d (by omega), rereadMembers]
  | name, j, (name', j') :: members, h, fuel + 1, rest, hf => by
    obtain ⟨ms, hreads, hvalues⟩ := readMembers_chars name' j' members h.2 fuel rest
      (by simp only [memberChars, List.length_append, List.length_cons] at hf ⊢; omega)
    obtain ⟨w, hread, hvalue⟩ := readAs_chars j h.1 fuel
      (',' :: (memberChars ((name', j') :: members) ++ '\x7d' :: rest))
      (by simp only [memberChars, List.length_append, List.length_cons] at hf ⊢; omega)
      (stops_cons rfl _)
    refine ⟨(name.toList.map .char, w) :: ms, ?_, fun d hd => ?_⟩
    · rw [memberChars_cons, List.append_assoc, List.cons_append, List.append_assoc,
        List.cons_append]
      exact readMembers_of_comma hread hreads
    · rw [membersDepth] at hd
      rw [rereadMembers]
      simp [Written.memberValues?, joinHalves_map_char, hvalue d (by omega), hvalues d (by omega)]

end

/-- The text of a value is a document, which means that value, as it is read, to a reader that goes
deep enough. -/
theorem exists_read?_chars {j : Json} (h : j.Readable) :
    ∃ w, Written.read? j.chars = some w ∧ ∀ d, j.depth ≤ d → w.value? d = some j.reread := by
  obtain ⟨w, hread, hvalue⟩ :=
    readAs_chars j h (2 * j.chars.length + 1) [] (by omega) stops_nil
  rw [List.append_nil] at hread
  refine ⟨w, ?_, hvalue⟩
  rw [Written.read?, hread]
  rfl

/-- The text of a value that is not too deep is read as that value. -/
theorem read?_chars {j : Json} (h : j.Readable) (hd : j.depth ≤ maxDepth) :
    read? j.chars = some j.reread := by
  obtain ⟨w, hread, hvalue⟩ := exists_read?_chars h
  rw [read?, hread]
  exact hvalue maxDepth hd

/-! ### Numbers that are found again -/

/-- The text of a number is read as that number. -/
def ReadsBack (x : Binary64) : Prop :=
  read? (x.text numberLayout) = some (.float x)

/-- The number, if the value is one that is no integer. -/
def float? : Json → Option Binary64
  | .float x => some x
  | _ => none

theorem float?_eq_some {j : Json} {x : Binary64} : j.float? = some x ↔ j = .float x := by
  cases j <;> simp [float?]

instance (x : Binary64) : Decidable (ReadsBack x) :=
  decidable_of_iff ((read? (x.text numberLayout)).bind float? = some x) <| by
    simp [ReadsBack, Option.bind_eq_some_iff, float?_eq_some]

theorem readsBack_iff {x : Binary64} (hx : x.isFinite) : ReadsBack x ↔ x.reread = x := by
  have hread : read? (x.text numberLayout) = some (.float x.reread) :=
    read?_chars (j := .float x) hx (Nat.zero_le _)
  rw [ReadsBack, hread, Option.some_inj, float.injEq]

/-! ### Line breaks -/

theorem newline_not_mem_toDigits (n : Nat) : '\n' ∉ Nat.toDigits 10 n := by
  intro h
  have hd := Nat.isDigit_of_mem_toDigits (by decide) (by decide) h
  cases hd

theorem newline_not_mem_positionalText {ds : List Char} (h : '\n' ∉ ds) (mark : Bool) (e : Int) :
    '\n' ∉ Binary64.positionalText mark ds e := by
  have htake (n : Nat) : '\n' ∉ ds.take n := fun hm => h (List.mem_of_mem_take hm)
  have hdrop (n : Nat) : '\n' ∉ ds.drop n := fun hm => h (List.mem_of_mem_drop hm)
  simp only [Binary64.positionalText]
  split_ifs
  · simp [h]
  · simp [h]
  · simp [htake, hdrop]
  · simp [h]

theorem newline_not_mem_scientificText {plus ds : List Char} (hp : '\n' ∉ plus) (h : '\n' ∉ ds)
    (leading : Int) : '\n' ∉ Binary64.scientificText plus ds leading := by
  have htake : '\n' ∉ ds.take 1 := fun hm => h (List.mem_of_mem_take hm)
  have htail : '\n' ∉ ds.tail := fun hm => h (List.mem_of_mem_tail hm)
  have hdigits := newline_not_mem_toDigits leading.natAbs
  simp only [Binary64.scientificText]
  split_ifs <;> simp [hp, htake, htail, hdigits]

theorem newline_not_mem_text (x : Binary64) : '\n' ∉ x.text numberLayout := by
  have hsign : '\n' ∉ if x.negative then ['-'] else [] := by split <;> decide
  simp only [Binary64.text]
  split
  · decide
  split
  · exact fun h => (List.mem_append.1 h).elim hsign (by decide)
  split
  · exact fun h => (List.mem_append.1 h).elim hsign (by decide)
  rw [List.mem_append, not_or]
  refine ⟨hsign, ?_⟩
  split
  · exact newline_not_mem_positionalText (newline_not_mem_toDigits _) _ _
  · exact newline_not_mem_scientificText (by decide) (newline_not_mem_toDigits _) _

theorem newline_not_mem_escapeChar (c : Char) : '\n' ∉ escapeChar c := by
  unfold escapeChar
  split
  all_goals try decide
  next hq hs hb hf hn hr ht =>
    split
    · next h =>
      have all : ∀ n < 0x20, '\n' ∉
          ['\\', 'u', '0', '0', Nat.digitChar (n / 16), Nat.digitChar (n % 16)] := by decide
      exact all c.toNat h
    · simpa using fun h => hn h.symm

theorem newline_not_mem_stringChars (s : String) : '\n' ∉ stringChars s := by
  simp [stringChars, newline_not_mem_escapeChar]

mutual

/-- The text of a value is a single line. -/
theorem newline_not_mem_chars : ∀ j : Json, '\n' ∉ j.chars
  | .null => by decide
  | .bool true => by decide
  | .bool false => by decide
  | .int n => by
    have hdigits := newline_not_mem_toDigits n.natAbs
    rw [chars, intChars]
    split_ifs <;> simp [hdigits]
  | .float x => newline_not_mem_text x
  | .string s => newline_not_mem_stringChars s
  | .array elements => by simp [chars, newline_not_mem_elementChars elements]
  | .object members => by simp [chars, newline_not_mem_memberChars members]

theorem newline_not_mem_elementChars : ∀ elements : List Json, '\n' ∉ elementChars elements
  | [] => by decide
  | [j] => newline_not_mem_chars j
  | j :: j' :: elements => by
    rw [elementChars_cons]
    simp [newline_not_mem_chars j, newline_not_mem_elementChars (j' :: elements)]

theorem newline_not_mem_memberChars :
    ∀ members : List (String × Json), '\n' ∉ memberChars members
  | [] => by decide
  | [(name, j)] => by
    simp [memberChars, newline_not_mem_stringChars, newline_not_mem_chars j]
  | (name, j) :: member :: members => by
    rw [memberChars_cons]
    simp [newline_not_mem_stringChars, newline_not_mem_chars j,
      newline_not_mem_memberChars (member :: members)]

end

end RecordFlow.Json
