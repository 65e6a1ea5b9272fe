import ConflictBatching.Proofs.Json.Number
import ConflictBatching.Proofs.Json.Text

/-! # Values that are passed over

Whatever the grammar calls a value is passed over to its last byte, at any depth and with any
spaces in it. A value costs at most two steps a byte, one for itself and one for the place it has
in a list or an object.
-/
namespace ConflictBatching

/-! ## Strings -/

theorem skipString_append {w : Bytes} (h : StringText w) {fuel : Nat} (hfuel : w.length < fuel)
    (rest : Bytes) : skipString fuel (w ++ byte '"' :: rest) = .ok rest := by
  have hslash : byte '\\' ≠ byte '"' := by decide
  induction h generalizing fuel with
  | nil =>
    obtain ⟨fuel, rfl⟩ := Nat.exists_eq_add_of_lt hfuel
    rfl
  | @plain b w hquote hback hcontrol _ ih =>
    obtain ⟨fuel, rfl⟩ := Nat.exists_eq_add_of_le' (Nat.one_le_of_lt hfuel)
    rw [List.cons_append, skipString, if_neg hquote, if_neg hback, if_neg hcontrol,
      ih (Nat.lt_of_succ_lt_succ hfuel)]
  | @short e c w he _ ih =>
    obtain ⟨fuel, rfl⟩ := Nat.exists_eq_add_of_le' (Nat.one_le_of_lt hfuel)
    have hescape : skipEscape (byte e :: (w ++ byte '"' :: rest)) =
        .ok (w ++ byte '"' :: rest) := by
      rw [skipEscape, lookup_escapedChars he]
      rfl
    simp only [List.length_cons] at hfuel
    simp only [List.cons_append, skipString, if_neg hslash, if_pos, hescape, bind, Except.bind]
    exact ih (by omega)
  | @point n hex w hhex _ ih =>
    obtain ⟨fuel, rfl⟩ := Nat.exists_eq_add_of_le' (Nat.one_le_of_lt hfuel)
    have hlookup : shortEscapes.lookup (byte 'u') = none := by decide
    have hescape : skipEscape (byte 'u' :: (hex ++ (w ++ byte '"' :: rest))) =
        .ok (w ++ byte '"' :: rest) := by
      rw [skipEscape, hlookup, readHex_append hhex]
      rfl
    simp only [List.length_cons, List.length_append] at hfuel
    simp only [List.cons_append, List.append_assoc, skipString, if_neg hslash, if_pos, hescape,
      bind, Except.bind]
    exact ih (by omega)

/-- A string is passed over with the bytes that are left as fuel. -/
theorem skipString_key {w : Bytes} (h : StringText w) (rest : Bytes) :
    skipString (w ++ byte '"' :: rest).length (w ++ byte '"' :: rest) = .ok rest :=
  skipString_append h (by rw [List.length_append, List.length_cons]; omega) rest

/-! ## Numbers -/

theorem skipDigits_append {digits rest : Bytes} (h : Digits digits)
    (hrest : ∀ b ∈ rest.head?, isDigit b = false) : skipDigits (digits ++ rest) = .ok rest := by
  obtain ⟨hne, hall⟩ := h
  rw [skipDigits, spanDigits_append hall hrest]
  cases digits with
  | nil => exact absurd rfl hne
  | cons b digits => rfl

theorem skipSign_append {sign digits : Bytes} (hsign : sign ∈ [[], [byte '+'], [byte '-']])
    (hdigits : Digits digits) (rest : Bytes) :
    skipSign (sign ++ (digits ++ rest)) = digits ++ rest := by
  simp only [List.mem_cons, List.not_mem_nil, or_false] at hsign
  rcases hsign with rfl | rfl | rfl
  · obtain ⟨hne, hall⟩ := hdigits
    cases digits with
    | nil => exact absurd rfl hne
    | cons b digits =>
      have hb : isDigit b = true := hall b List.mem_cons_self
      have hplus : b ≠ byte '+' := ne_of_isDigit hb (by decide)
      have hminus : b ≠ byte '-' := ne_of_isDigit hb (by decide)
      simp [skipSign, hplus, hminus]
  · rfl
  · rfl

theorem skipExponent_append {exponent rest : Bytes} (h : ExponentText exponent)
    (hrest : EndsNumber rest) : skipExponent (exponent ++ rest) = .ok rest := by
  cases h with
  | none =>
    cases rest with
    | nil => rfl
    | cons b rest =>
      obtain ⟨-, -, hexponent⟩ := hrest b rfl
      simp [skipExponent, hexponent]
  | @exponent e sign digits he hsign hdigits =>
    have hexponent : isExponent (byte e) = true := by
      simp only [List.mem_cons, List.not_mem_nil, or_false] at he
      rcases he with rfl | rfl <;> rfl
    rw [List.cons_append, skipExponent, if_pos hexponent, List.append_assoc,
      skipSign_append hsign hdigits, skipDigits_append hdigits fun b hb => (hrest b hb).1]

/-- What follows the digits of the whole part or of the places. -/
theorem exponent_head {exponent rest : Bytes} (h : ExponentText exponent)
    (hrest : EndsNumber rest) :
    ∀ b ∈ (exponent ++ rest).head?, isDigit b = false ∧ b ≠ byte '.' := by
  intro b hb
  cases h with
  | none => exact ⟨(hrest b hb).1, (hrest b hb).2.1⟩
  | @exponent e sign digits he hsign hdigits =>
    rw [← Option.mem_some_iff.mp hb]
    simp only [List.mem_cons, List.not_mem_nil, or_false] at he
    rcases he with rfl | rfl <;> decide

theorem skipNumber_append {w rest : Bytes} (h : NumberText w) (hrest : EndsNumber rest) :
    skipNumber (w ++ rest) = .ok rest := by
  obtain ⟨whole, places, exponent, ⟨⟨hne, hdigits⟩, hzero⟩, hplaces, hexponent, rfl⟩ := h
  obtain ⟨b, digits, rfl⟩ := List.exists_cons_of_ne_nil hne
  have hhead := exponent_head hexponent hrest
  have hlone : ¬(b = byte '0' ∧ (b :: digits).length ≠ 1) := by
    rintro ⟨rfl, hlength⟩
    exact hlength (hzero rfl)
  cases hplaces with
  | none =>
    have hspan := spanDigits_append hdigits fun c hc => (hhead c hc).1
    have hskip := skipExponent_append hexponent hrest
    rw [List.nil_append, List.append_assoc]
    generalize exponent ++ rest = after at hspan hskip hhead
    rw [List.cons_append] at hspan ⊢
    simp only [skipNumber, hspan, if_neg hlone]
    cases after with
    | nil => exact hskip
    | cons c after =>
      rw [← hskip]
      exact if_neg (hhead c rfl).2
  | @places fraction hfraction =>
    have hpoint : ∀ c ∈ (byte '.' :: (fraction ++ (exponent ++ rest))).head?, isDigit c = false := by
      rintro c ⟨⟩
      decide
    have hspan := spanDigits_append hdigits hpoint
    have hskip := skipDigits_append hfraction fun c hc => (hhead c hc).1
    rw [List.cons_append] at hspan
    simp only [List.append_assoc, List.cons_append, skipNumber, hspan, if_neg hlone, if_pos, hskip,
      bind, Except.bind, skipExponent_append hexponent hrest]

theorem NumberText.head {w : Bytes} (h : NumberText w) :
    ∃ b digits, w = b :: digits ∧ isDigit b = true := by
  obtain ⟨whole, places, exponent, ⟨⟨hne, hdigits⟩, -⟩, -, -, rfl⟩ := h
  obtain ⟨b, digits, rfl⟩ := List.exists_cons_of_ne_nil hne
  exact ⟨b, digits ++ (places ++ exponent), rfl, hdigits b List.mem_cons_self⟩

/-! ## Lists and objects -/

theorem Bracketed.head {α : Type} {opening closing : Char} {part : α → Bytes → Prop} {xs : List α}
    {w : Bytes} (h : Bracketed opening closing part xs w) : ∃ inner, w = byte opening :: inner := by
  cases h with
  | empty => exact ⟨_, rfl⟩
  | parts => exact ⟨_, rfl⟩

/-- The first byte of a value tells it from a space and from the end of a list. -/
theorem ValueText.head {w : Bytes} (h : ValueText w) :
    ∃ b tail, w = b :: tail ∧ isSpace b = false ∧ b ≠ byte ']' := by
  cases h with
  | null => exact ⟨_, _, rfl, by decide⟩
  | yes => exact ⟨_, _, rfl, by decide⟩
  | no => exact ⟨_, _, rfl, by decide⟩
  | number hnumber =>
    obtain ⟨b, digits, rfl, hdigit⟩ := hnumber.head
    exact ⟨b, digits, rfl, (isSpace_of_isDigit hdigit).1, ne_of_isDigit hdigit (by decide)⟩
  | negative => exact ⟨_, _, rfl, by decide⟩
  | string => exact ⟨_, _, rfl, by decide⟩
  | list _ hlist =>
    obtain ⟨inner, rfl⟩ := hlist.head
    exact ⟨_, inner, rfl, by decide⟩
  | object _ _ hobject =>
    obtain ⟨inner, rfl⟩ := hobject.head
    exact ⟨_, inner, rfl, by decide⟩

theorem expectColon_append {w : Bytes} (h : Spaces w) (rest : Bytes) :
    expectColon (w ++ byte ':' :: rest) = .ok rest := by
  have hskip : skipSpaces (w ++ byte ':' :: rest) = byte ':' :: rest := skipSpaces_append h _
  rw [expectColon, hskip]
  rfl

/-- A member from its opening quote on, and how long its value with the spaces is at most. -/
theorem MemberText.opens {member : Bytes × Bytes} {w : Bytes} (h : MemberText member w) :
    ∃ after value, Spaces after ∧ Padded member.2 value ∧ value.length < w.length ∧
      ∀ rest, skipSpaces (w ++ rest) =
        byte '"' :: (member.1 ++ byte '"' :: (after ++ byte ':' :: (value ++ rest))) := by
  obtain ⟨key, value, ⟨before, after, hbefore, hafter, rfl⟩, hvalue, rfl⟩ := h
  refine ⟨after, value, hafter, hvalue, ?_, fun rest => ?_⟩
  · simp only [List.length_append, List.length_cons]
    omega
  · have hshape : before ++ (inQuotes member.1 ++ after) ++ byte ':' :: value ++ rest = before ++
        byte '"' :: (member.1 ++ byte '"' :: (after ++ byte ':' :: (value ++ rest))) := by
      simp [inQuotes]
    rw [hshape, skipSpaces_append hbefore, skipSpaces_cons (by decide)]

theorem Separated.opens {members : List (Bytes × Bytes)} {w : Bytes}
    (h : Separated MemberText members w) (rest : Bytes) :
    ∃ tail, skipSpaces (w ++ rest) = byte '"' :: tail := by
  cases h with
  | last hmember =>
    obtain ⟨_, _, _, _, _, hopens⟩ := hmember.opens
    exact ⟨_, hopens rest⟩
  | more hmember _ =>
    obtain ⟨_, _, _, _, _, hopens⟩ := hmember.opens
    rw [List.append_assoc]
    exact ⟨_, hopens _⟩

/-- How a value is passed over: to its last byte, with any fuel from twice its length on. -/
def PassedOver (w : Bytes) : Prop :=
  ∀ fuel rest, 2 * w.length ≤ fuel → EndsNumber rest → skipValue fuel (w ++ rest) = .ok rest

theorem skipValue_skipSpaces (fuel : Nat) (bytes : Bytes) :
    skipValue fuel (skipSpaces bytes) = skipValue fuel bytes := by
  cases fuel with
  | zero => rw [skipValue, skipValue]
  | succ fuel => rw [skipValue, skipValue, skipSpaces_skipSpaces]

/-- What is left after a value with spaces around it differs from what follows by spaces. -/
theorem PassedOver.padded {value w : Bytes} (h : PassedOver value) (hw : Padded value w) {fuel : Nat}
    (hfuel : 2 * w.length ≤ fuel) {rest : Bytes} (hrest : EndsNumber rest) :
    ∃ bytes, skipValue fuel (w ++ rest) = .ok bytes ∧ skipSpaces bytes = skipSpaces rest := by
  obtain ⟨before, after, hbefore, hafter, rfl⟩ := hw
  simp only [List.length_append] at hfuel
  refine ⟨after ++ rest, ?_, skipSpaces_append hafter rest⟩
  rw [← skipValue_skipSpaces, List.append_assoc, skipSpaces_append hbefore, skipValue_skipSpaces,
    List.append_assoc]
  exact h fuel (after ++ rest) (by omega) (endsNumber_spaces hafter hrest)

theorem skipItems_append {items : List Bytes} {w : Bytes} (h : Separated Padded items w)
    (hitems : ∀ item ∈ items, PassedOver item) {fuel : Nat} (hfuel : 2 * w.length + 1 ≤ fuel)
    (rest : Bytes) : skipItems fuel (w ++ byte ']' :: rest) = .ok rest := by
  -- An item takes a step before its value does, so one step more than for the values is enough.
  induction h generalizing fuel with
  | @last item w hitem =>
    obtain ⟨fuel, rfl⟩ := Nat.exists_eq_add_of_le' (Nat.one_le_of_lt hfuel)
    have hends : EndsNumber (byte ']' :: rest) := endsNumber_cons (by decide) rest
    obtain ⟨bytes, hskip, hspaces⟩ := (hitems item List.mem_cons_self).padded hitem
      (Nat.le_of_succ_le_succ hfuel) hends
    have hnext : skipSpaces bytes = byte ']' :: rest := hspaces
    simp only [skipItems, hskip, bind, Except.bind, hnext]
    rfl
  | @more item items w ws hitem _ ih =>
    obtain ⟨fuel, rfl⟩ := Nat.exists_eq_add_of_le' (Nat.one_le_of_lt hfuel)
    obtain ⟨hfirst, hothers⟩ := List.forall_mem_cons.mp hitems
    simp only [List.length_append, List.length_cons] at hfuel
    have hends : EndsNumber (byte ',' :: (ws ++ byte ']' :: rest)) :=
      endsNumber_cons (by decide) _
    obtain ⟨bytes, hskip, hspaces⟩ := hfirst.padded hitem (show 2 * w.length ≤ fuel by omega) hends
    have hnext : skipSpaces bytes = byte ',' :: (ws ++ byte ']' :: rest) := hspaces
    rw [List.append_assoc, List.cons_append]
    simp only [skipItems, hskip, bind, Except.bind, hnext]
    exact ih hothers (by omega)

theorem skipMembers_append {members : List (Bytes × Bytes)} {w : Bytes}
    (h : Separated MemberText members w) (hkeys : ∀ member ∈ members, StringText member.1)
    (hvalues : ∀ member ∈ members, PassedOver member.2) {fuel : Nat}
    (hfuel : 2 * w.length + 1 ≤ fuel) (rest : Bytes) :
    skipMembers fuel (w ++ byte '}' :: rest) = .ok rest := by
  induction h generalizing fuel with
  | @last member w hmember =>
    obtain ⟨fuel, rfl⟩ := Nat.exists_eq_add_of_le' (Nat.one_le_of_lt hfuel)
    obtain ⟨after, value, hafter, hvalue, hlength, hopens⟩ := hmember.opens
    have hends : EndsNumber (byte '}' :: rest) := endsNumber_cons (by decide) rest
    obtain ⟨bytes, hskip, hspaces⟩ := (hvalues member List.mem_cons_self).padded hvalue
      (show 2 * value.length ≤ fuel by omega) hends
    have hnext : skipSpaces bytes = byte '}' :: rest := hspaces
    simp only [skipMembers, hopens, skipString_key (hkeys member List.mem_cons_self),
      expectColon_append hafter, hskip, bind, Except.bind, hnext]
    rfl
  | @more member members w ws hmember _ ih =>
    obtain ⟨fuel, rfl⟩ := Nat.exists_eq_add_of_le' (Nat.one_le_of_lt hfuel)
    obtain ⟨hkey, hotherKeys⟩ := List.forall_mem_cons.mp hkeys
    obtain ⟨hfirst, hotherValues⟩ := List.forall_mem_cons.mp hvalues
    obtain ⟨after, value, hafter, hvalue, hlength, hopens⟩ := hmember.opens
    simp only [List.length_append, List.length_cons] at hfuel
    have hends : EndsNumber (byte ',' :: (ws ++ byte '}' :: rest)) :=
      endsNumber_cons (by decide) _
    obtain ⟨bytes, hskip, hspaces⟩ :=
      hfirst.padded hvalue (show 2 * value.length ≤ fuel by omega) hends
    have hnext : skipSpaces bytes = byte ',' :: (ws ++ byte '}' :: rest) := hspaces
    rw [List.append_assoc, List.cons_append]
    simp only [skipMembers, hopens, skipString_key hkey, expectColon_append hafter, hskip, bind,
      Except.bind, hnext]
    exact ih hotherKeys hotherValues (by omega)

theorem skipValue_digit {b : UInt8} (hdigit : isDigit b = true) (fuel : Nat) (rest : Bytes) :
    skipValue (fuel + 1) (b :: rest) = skipNumber (b :: rest) := by
  have hne := fun c => ne_of_isDigit (c := c) hdigit
  rw [skipValue, skipSpaces_cons (isSpace_of_isDigit hdigit).1]
  simp [hne (byte 'n') (by decide), hne (byte 't') (by decide), hne (byte 'f') (by decide),
    hne (byte '-') (by decide), hdigit]

theorem skipItems_skipSpaces (fuel : Nat) (bytes : Bytes) :
    skipItems fuel (skipSpaces bytes) = skipItems fuel bytes := by
  cases fuel with
  | zero => rw [skipItems, skipItems]
  | succ fuel => rw [skipItems, skipItems, skipValue_skipSpaces]

theorem skipMembers_skipSpaces (fuel : Nat) (bytes : Bytes) :
    skipMembers fuel (skipSpaces bytes) = skipMembers fuel bytes := by
  cases fuel with
  | zero => rw [skipMembers, skipMembers]
  | succ fuel => rw [skipMembers, skipMembers, skipSpaces_skipSpaces]

theorem Padded.skipSpaces_value {value w : Bytes} (hw : Padded value w) (hvalue : ValueText value)
    (rest : Bytes) : ∃ b tail, skipSpaces (w ++ rest) = b :: tail ∧ b ≠ byte ']' := by
  obtain ⟨before, after, hbefore, -, rfl⟩ := hw
  obtain ⟨b, tail, rfl, hspace, hend⟩ := hvalue.head
  refine ⟨b, tail ++ after ++ rest, ?_, hend⟩
  rw [List.append_assoc, skipSpaces_append hbefore]
  exact skipSpaces_cons hspace _

theorem skipValue_list {items : List Bytes} {w : Bytes} (hvalues : ∀ item ∈ items, ValueText item)
    (hitems : ∀ item ∈ items, PassedOver item) (h : ListText items w) : PassedOver w := by
  intro fuel rest hfuel _
  cases h with
  | @empty inner hinner =>
    obtain ⟨fuel, rfl⟩ := Nat.exists_eq_add_of_le' (Nat.one_le_of_lt hfuel)
    have hskip : skipSpaces (inner ++ byte ']' :: rest) = byte ']' :: rest :=
      skipSpaces_append hinner _
    rw [List.cons_append, List.append_assoc, List.singleton_append, skipValue,
      skipSpaces_cons (by decide)]
    simp only [hskip]
    rfl
  | @parts items inner hparts =>
    obtain ⟨fuel, rfl⟩ := Nat.exists_eq_add_of_le' (Nat.one_le_of_lt hfuel)
    have hfirst : ∃ b tail, skipSpaces (inner ++ byte ']' :: rest) = b :: tail ∧ b ≠ byte ']' := by
      cases hparts with
      | @last item _ hitem =>
        exact hitem.skipSpaces_value (hvalues item List.mem_cons_self) (byte ']' :: rest)
      | @more item items w ws hitem _ =>
        rw [List.append_assoc]
        exact hitem.skipSpaces_value (hvalues item List.mem_cons_self) _
    obtain ⟨b, tail, hskip, hend⟩ := hfirst
    simp only [List.length_cons, List.length_append] at hfuel
    rw [List.cons_append, List.append_assoc, List.singleton_append, skipValue,
      skipSpaces_cons (by decide)]
    have hrun := skipItems_append hparts hitems (show 2 * inner.length + 1 ≤ fuel by omega) rest
    rw [← skipItems_skipSpaces, hskip] at hrun
    simp only [hskip]
    rw [← hrun]
    exact if_neg hend

theorem skipValue_object {members : List (Bytes × Bytes)} {w : Bytes}
    (hkeys : ∀ member ∈ members, StringText member.1)
    (hvalues : ∀ member ∈ members, PassedOver member.2) (h : ObjectText members w) :
    PassedOver w := by
  intro fuel rest hfuel _
  cases h with
  | @empty inner hinner =>
    obtain ⟨fuel, rfl⟩ := Nat.exists_eq_add_of_le' (Nat.one_le_of_lt hfuel)
    have hskip : skipSpaces (inner ++ byte '}' :: rest) = byte '}' :: rest :=
      skipSpaces_append hinner _
    rw [List.cons_append, List.append_assoc, List.singleton_append, skipValue,
      skipSpaces_cons (by decide)]
    simp only [hskip]
    rfl
  | @parts members inner hparts =>
    obtain ⟨fuel, rfl⟩ := Nat.exists_eq_add_of_le' (Nat.one_le_of_lt hfuel)
    obtain ⟨tail, hskip⟩ := hparts.opens (byte '}' :: rest)
    simp only [List.length_cons, List.length_append] at hfuel
    rw [List.cons_append, List.append_assoc, List.singleton_append, skipValue,
      skipSpaces_cons (by decide)]
    have hrun := skipMembers_append hparts hkeys hvalues
      (show 2 * inner.length + 1 ≤ fuel by omega) rest
    rw [← skipMembers_skipSpaces, hskip] at hrun
    simp only [hskip]
    rw [← hrun]
    rfl

theorem ValueText.passedOver {w : Bytes} (h : ValueText w) : PassedOver w := by
  induction h with
  | null =>
    rintro (_ | fuel) rest hfuel _
    · cases hfuel
    · rfl
  | yes =>
    rintro (_ | fuel) rest hfuel _
    · cases hfuel
    · rfl
  | no =>
    rintro (_ | fuel) rest hfuel _
    · cases hfuel
    · rfl
  | @number w hnumber =>
    obtain ⟨b, digits, rfl, hdigit⟩ := hnumber.head
    rintro (_ | fuel) rest hfuel hrest
    · cases hfuel
    · rw [← skipNumber_append hnumber hrest]
      exact skipValue_digit hdigit fuel (digits ++ rest)
  | negative hnumber =>
    rintro (_ | fuel) rest hfuel hrest
    · cases hfuel
    · exact skipNumber_append hnumber hrest
  | string hcontent =>
    rintro (_ | fuel) rest hfuel _
    · cases hfuel
    · rw [inQuotes, List.cons_append, List.append_assoc]
      exact skipString_key hcontent rest
  | list hitems hlist ih => exact skipValue_list hitems ih hlist
  | object hkeys _ hobject ih => exact skipValue_object hkeys ih hobject

/-- A value with spaces around it is passed over wherever it ends, up to the spaces behind it. -/
theorem skipAny_padded {value w : Bytes} (hvalue : ValueText value) (hw : Padded value w)
    {rest : Bytes} (hrest : EndsNumber rest) :
    ∃ bytes, skipAny (w ++ rest) = .ok bytes ∧ skipSpaces bytes = skipSpaces rest :=
  hvalue.passedOver.padded hw (by rw [List.length_append]; omega) hrest

end ConflictBatching
