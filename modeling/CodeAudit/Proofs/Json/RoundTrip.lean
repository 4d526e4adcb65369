import CodeAudit.Proofs.Json.Scalars

/-!
# JSON: what is written is read back

A value is written, with indentation or on one line, and read back as `readBack` says. The one
condition is on whole numbers (`Fits`): the reader refuses more than `Number.maxDigits` digits. The
proof is an induction over the value, in any layout; its work is in the items of arrays and the
members of objects, where the reader has to find the same ends that the writer has set.
-/

namespace CodeAudit.Json

open Text Layout

variable {l : Layout}

/-! ## Arrays -/

/-- The last item: a closing bracket follows. -/
theorem readItems_last {fuel : Nat} {s next : Spot} {item : Json} {rest : List Char} {pos : Nat}
    (hitem : readValue fuel s = .ok (item, next)) (hnext : skipSpace next = ⟨']' :: rest, pos⟩)
    (read : List Json) :
    readItems (fuel + 1) s read = .ok (.arr (item :: read).reverse, ⟨rest, pos + 1⟩) := by
  rw [readItems, hitem]
  simp only [bind, Except.bind, hnext]
  rfl

/-- Another item: a comma follows. -/
theorem readItems_more {fuel : Nat} {s next : Spot} {item : Json} {rest : List Char} {pos : Nat}
    (hitem : readValue fuel s = .ok (item, next)) (hnext : skipSpace next = ⟨',' :: rest, pos⟩)
    (read : List Json) :
    readItems (fuel + 1) s read = readItems fuel (skipSpace ⟨rest, pos + 1⟩) (item :: read) := by
  rw [readItems, hitem]
  simp only [bind, Except.bind, hnext]
  rfl

/-- Several items: the first, a comma, and the others. -/
theorem toList_itemsText_cons (level : Nat) (j k : Json) (items : List Json) :
    (l.itemsText level (j :: k :: items)).toList =
      (l.text level j).toList ++ (',' :: ((l.next level).toList ++
        (l.itemsText level (k :: items)).toList)) := by
  rw [itemsText]
  · simp
  · simp

/-- Items start as the first of them does. -/
theorem startsValue_itemsText (l : Layout) (level : Nat) (j : Json) (items : List Json) :
    StartsValue (l.itemsText level (j :: items)).toList := by
  have hj := startsValue_text l level j
  cases items with
  | nil =>
    rw [itemsText]
    exact hj
  | cons k items =>
    rw [toList_itemsText_cons]
    exact hj.append _

/-- **Items are read back**, up to the closing bracket. -/
theorem readItems_itemsText (level below : Nat) {items : List Json} (hne : items ≠ [])
    (hitems : ∀ j ∈ items, ReadsBack l j) :
    ∀ (fuel : Nat) (rest : List Char) (pos : Nat) (read : List Json),
      2 * (l.itemsText level items).toList.length + 1 ≤ fuel →
      readItems fuel ⟨(l.itemsText level items).toList ++
          ((l.edge below).toList ++ ']' :: rest), pos⟩ read =
        .ok (.arr (read.reverse ++ items.map readBack),
          ⟨rest, pos + (l.itemsText level items).toList.length +
            (l.edge below).toList.length + 1⟩) := by
  induction items with
  | nil => exact absurd rfl hne
  | cons j items ih =>
    intro fuel rest pos read hfuel
    have hj : ReadsBack l j := hitems j List.mem_cons_self
    obtain ⟨fuel, rfl⟩ : ∃ k, fuel = k + 1 := ⟨fuel - 1, by omega⟩
    cases items with
    | nil =>
      rw [itemsText] at hfuel ⊢
      rw [readItems_last
        (hj level fuel _ pos (endsNumber_gap (l.edge_gap below) (by decide) rest) (by omega))
        (skipSpace_gap (l.edge_gap below) (by decide) rest _)]
      simp
    | cons k items =>
      rw [toList_itemsText_cons] at hfuel ⊢
      simp only [List.length_append, List.length_cons] at hfuel
      simp only [List.append_assoc, List.cons_append]
      rw [readItems_more (hj level fuel _ pos (endsNumber_mark (by decide) _) (by omega))
          (skipSpace_stay (by decide) _ _),
        skipSpace_value (l.next_gap level) (startsValue_itemsText l level k items),
        ih (List.cons_ne_nil k items) (fun i hi => hitems i (List.mem_cons_of_mem j hi)) fuel rest
          _ _ (by omega)]
      simp only [List.reverse_cons, List.append_assoc, List.singleton_append, List.map_cons,
        List.length_append, List.length_cons]
      congr 3
      omega

/-- An opening bracket starts an array. -/
theorem readValue_bracket (fuel : Nat) (rest : List Char) (pos : Nat) :
    readValue (fuel + 1) ⟨'[' :: rest, pos⟩ =
      if (skipSpace ⟨rest, pos + 1⟩).rest.head? = some ']' then
        .ok (.arr [], (skipSpace ⟨rest, pos + 1⟩).skip 1)
      else readItems fuel (skipSpace ⟨rest, pos + 1⟩) [] := by
  rw [readValue]
  rfl

/-- An array with items: brackets on the outer lines, the items one level further in. -/
theorem toList_text_arr (level : Nat) (j : Json) (items : List Json) :
    (l.text level (arr (j :: items))).toList =
      '[' :: ((l.edge (level + 1)).toList ++ ((l.itemsText (level + 1) (j :: items)).toList ++
        ((l.edge level).toList ++ [']']))) := by
  rw [text]
  simp

/-- **An array is read back** if its items are. -/
theorem readsBack_arr {items : List Json} (hitems : ∀ j ∈ items, ReadsBack l j) :
    ReadsBack l (arr items) := by
  intro level fuel rest pos hr hfuel
  rw [readBack, readBackItems_eq_map]
  cases items with
  | nil =>
    rw [text] at hfuel ⊢
    obtain ⟨fuel, rfl⟩ : ∃ k, fuel = k + 1 := ⟨fuel - 1, by simp at hfuel; omega⟩
    change readValue (fuel + 1) ⟨'[' :: (']' :: rest), pos⟩ = _
    rw [readValue_bracket, skipSpace_stay (by decide)]
    rfl
  | cons j items =>
    have hstart := startsValue_itemsText l (level + 1) j items
    rw [toList_text_arr] at hfuel ⊢
    simp only [List.length_append, List.length_cons, List.length_nil] at hfuel
    obtain ⟨fuel, rfl⟩ : ∃ k, fuel = k + 1 := ⟨fuel - 1, by omega⟩
    simp only [List.cons_append, List.append_assoc, List.nil_append]
    rw [readValue_bracket, skipSpace_value (l.edge_gap (level + 1)) hstart, if_neg,
      readItems_itemsText (level + 1) level (List.cons_ne_nil j items) hitems fuel rest _ _
        (by omega)]
    · simp only [List.reverse_nil, List.nil_append, List.length_append, List.length_cons,
        List.length_nil]
      congr 3
      omega
    · obtain ⟨c, more, htext, -, hc, -⟩ := hstart
      rw [htext]
      exact fun h => hc (Option.some.inj h)

/-! ## Objects -/

variable {name : String} {value : Json} {tail : List Char} {next : Spot} {fuel pos : Nat}

/-- A member is a name, a colon and a value; what follows decides how to go on. -/
theorem readMembers_member
    (hvalue : readValue fuel (skipSpace ⟨tail, pos + (quote name).toList.length + 1⟩) =
      .ok (value, next)) (read : List (String × Json)) :
    readMembers (fuel + 1) ⟨(quote name).toList ++ ':' :: tail, pos⟩ read =
      match (skipSpace next).rest with
      | ',' :: _ =>
        readMembers fuel (skipSpace ((skipSpace next).skip 1)) (setMember read name value)
      | c :: _ =>
        if c.toNat = 0x7d then .ok (.obj (setMember read name value), (skipSpace next).skip 1)
        else failAt "Expecting ',' delimiter" (skipSpace next).position
      | [] => failAt "Expecting ',' delimiter" (skipSpace next).position := by
  have hname := readString_quote name (':' :: tail) pos
  have hcolon : ∀ p, skipSpace ⟨':' :: tail, p⟩ = ⟨':' :: tail, p⟩ :=
    fun p => skipSpace_stay (by decide) tail p
  rw [toList_quote] at hvalue hname ⊢
  simp only [List.cons_append] at hname ⊢
  rw [readMembers]
  simp only [hname, bind, Except.bind, hcolon]
  rw [if_neg (fun h => h rfl), skip_one, hvalue]
  rfl

/-- The last member: a closing brace follows. -/
theorem readMembers_last {rest : List Char} {after : Nat}
    (hvalue : readValue fuel (skipSpace ⟨tail, pos + (quote name).toList.length + 1⟩) =
      .ok (value, next))
    (hnext : skipSpace next = ⟨Char.ofNat 0x7d :: rest, after⟩) (read : List (String × Json)) :
    readMembers (fuel + 1) ⟨(quote name).toList ++ ':' :: tail, pos⟩ read =
      .ok (.obj (setMember read name value), ⟨rest, after + 1⟩) := by
  rw [readMembers_member hvalue, hnext]
  rfl

/-- Another member: a comma follows. -/
theorem readMembers_more {rest : List Char} {after : Nat}
    (hvalue : readValue fuel (skipSpace ⟨tail, pos + (quote name).toList.length + 1⟩) =
      .ok (value, next))
    (hnext : skipSpace next = ⟨',' :: rest, after⟩) (read : List (String × Json)) :
    readMembers (fuel + 1) ⟨(quote name).toList ++ ':' :: tail, pos⟩ read =
      readMembers fuel (skipSpace ⟨rest, after + 1⟩) (setMember read name value) := by
  rw [readMembers_member hvalue, hnext]
  rfl

/-- One member: its name, a colon and a blank, and its value. -/
theorem toList_membersText_one (level : Nat) (name : String) (j : Json) :
    (l.membersText level [(name, j)]).toList =
      (quote name).toList ++ (':' :: (' ' :: (l.text level j).toList)) := by
  rw [membersText]
  simp

/-- Several members: the first, a comma, and the others on lines of their own. -/
theorem toList_membersText_cons (level : Nat) (name : String) (j : Json)
    (m : String × Json) (members : List (String × Json)) :
    (l.membersText level ((name, j) :: m :: members)).toList =
      (quote name).toList ++ (':' :: (' ' :: ((l.text level j).toList ++ (',' ::
        ((l.next level).toList ++ (l.membersText level (m :: members)).toList))))) := by
  rw [membersText]
  · simp
  · simp

/-- Members start with the quote of the first name. -/
theorem exists_cons_membersText (l : Layout) (level : Nat) (m : String × Json)
    (members : List (String × Json)) :
    ∃ more, (l.membersText level (m :: members)).toList = '"' :: more := by
  obtain ⟨name, j⟩ := m
  cases members with
  | nil =>
    rw [toList_membersText_one, toList_quote]
    exact ⟨_, rfl⟩
  | cons k members =>
    rw [toList_membersText_cons, toList_quote]
    exact ⟨_, rfl⟩

/-- The reader passes the blank behind a colon. -/
theorem skipSpace_blank (level : Nat) (j : Json) (rest : List Char) (pos : Nat) :
    skipSpace ⟨' ' :: ((l.text level j).toList ++ rest), pos⟩ =
      ⟨(l.text level j).toList ++ rest, pos + 1⟩ := by
  obtain ⟨c, more, htext, hc, -⟩ := startsValue_text l level j
  have hgap : IsGap [' '] := by simp [IsGap]
  rw [htext]
  exact skipSpace_gap hgap hc (more ++ rest) pos

/-- **Members are read back**, up to the closing brace. -/
theorem readMembers_membersText (level below : Nat) {members : List (String × Json)}
    (hne : members ≠ []) (hmembers : ∀ m ∈ members, ReadsBack l m.2) :
    ∀ (fuel : Nat) (rest : List Char) (pos : Nat) (read : List (String × Json)),
      2 * (l.membersText level members).toList.length + 1 ≤ fuel →
      readMembers fuel ⟨(l.membersText level members).toList ++
          ((l.edge below).toList ++ Char.ofNat 0x7d :: rest), pos⟩ read =
        .ok (.obj (readBackMembers read members),
          ⟨rest, pos + (l.membersText level members).toList.length +
            (l.edge below).toList.length + 1⟩) := by
  induction members with
  | nil => exact absurd rfl hne
  | cons m members ih =>
    intro fuel rest pos read hfuel
    obtain ⟨name, j⟩ := m
    have hj : ReadsBack l j := hmembers (name, j) List.mem_cons_self
    obtain ⟨fuel, rfl⟩ : ∃ k, fuel = k + 1 := ⟨fuel - 1, by omega⟩
    cases members with
    | nil =>
      rw [toList_membersText_one] at hfuel ⊢
      simp only [List.length_append, List.length_cons] at hfuel
      simp only [List.append_assoc, List.cons_append]
      rw [readMembers_last (by
          rw [skipSpace_blank]
          exact hj level fuel _ _ (endsNumber_gap (l.edge_gap below) (by decide) rest) (by omega))
        (skipSpace_gap (l.edge_gap below) (by decide) rest _)]
      simp only [readBackMembers, List.length_append, List.length_cons]
      congr 3
      omega
    | cons k members =>
      obtain ⟨more, hmore⟩ := exists_cons_membersText l level k members
      rw [toList_membersText_cons] at hfuel ⊢
      simp only [List.length_append, List.length_cons] at hfuel
      simp only [List.append_assoc, List.cons_append]
      rw [readMembers_more (by
          rw [skipSpace_blank]
          exact hj level fuel _ _ (endsNumber_mark (by decide) _) (by omega))
        (skipSpace_stay (by decide) _ _),
        skipSpace_value (l.next_gap level) ⟨'"', more, hmore, by decide, by decide, by decide⟩,
        ih (List.cons_ne_nil k members) (fun i hi => hmembers i (List.mem_cons_of_mem _ hi)) fuel
          rest _ _ (by omega)]
      simp only [readBackMembers, List.length_append, List.length_cons]
      congr 3
      omega

/-- An opening brace starts an object. -/
theorem readValue_brace (fuel : Nat) (rest : List Char) (pos : Nat) :
    readValue (fuel + 1) ⟨Char.ofNat 0x7b :: rest, pos⟩ =
      if (skipSpace ⟨rest, pos + 1⟩).rest.head?.map Char.toNat = some 0x7d then
        .ok (.obj [], (skipSpace ⟨rest, pos + 1⟩).skip 1)
      else readMembers fuel (skipSpace ⟨rest, pos + 1⟩) [] := by
  rw [readValue.eq_def]
  rfl

/-- An object with members: braces on the outer lines, the members one level further in. -/
theorem toList_text_obj (level : Nat) (m : String × Json) (members : List (String × Json)) :
    (l.text level (obj (m :: members))).toList =
      Char.ofNat 0x7b :: ((l.edge (level + 1)).toList ++
        ((l.membersText (level + 1) (m :: members)).toList ++
          ((l.edge level).toList ++ [Char.ofNat 0x7d]))) := by
  rw [text]
  simp

/-- **An object is read back** if its values are. -/
theorem readsBack_obj {members : List (String × Json)} (hmembers : ∀ m ∈ members, ReadsBack l m.2) :
    ReadsBack l (obj members) := by
  intro level fuel rest pos hr hfuel
  rw [readBack]
  cases members with
  | nil =>
    rw [text] at hfuel ⊢
    obtain ⟨fuel, rfl⟩ : ∃ k, fuel = k + 1 := ⟨fuel - 1, by simp at hfuel; omega⟩
    change readValue (fuel + 1) ⟨Char.ofNat 0x7b :: (Char.ofNat 0x7d :: rest), pos⟩ = _
    rw [readValue_brace, skipSpace_stay (by decide), readBackMembers]
    rfl
  | cons m members =>
    obtain ⟨more, hmore⟩ := exists_cons_membersText l (level + 1) m members
    rw [toList_text_obj] at hfuel ⊢
    simp only [List.length_append, List.length_cons, List.length_nil] at hfuel
    obtain ⟨fuel, rfl⟩ : ∃ k, fuel = k + 1 := ⟨fuel - 1, by omega⟩
    simp only [List.cons_append, List.append_assoc, List.nil_append]
    rw [readValue_brace, skipSpace_value (l.edge_gap (level + 1))
      ⟨'"', more, hmore, by decide, by decide, by decide⟩, if_neg,
      readMembers_membersText (level + 1) level (List.cons_ne_nil m members) hmembers fuel rest
        _ _ (by omega)]
    · simp only [List.length_append, List.length_cons, List.length_nil]
      congr 3
      omega
    · rw [hmore]
      intro hbrace
      have hnat : '"'.toNat = 0x7d := Option.some.inj hbrace
      exact absurd hnat (by decide)

/-! ## The round trip -/

/-- **A value that the reader takes**: its whole numbers do not have too many digits. -/
inductive Fits : Json → Prop
  | null : Fits null
  | bool (b : Bool) : Fits (bool b)
  | int {n : Int} (h : FitsReader n) : Fits (int n)
  | float (x : Float) : Fits (float x)
  | str (s : String) : Fits (str s)
  | arr {items : List Json} (h : ∀ j ∈ items, Fits j) : Fits (arr items)
  | obj {members : List (String × Json)} (h : ∀ m ∈ members, Fits m.2) : Fits (obj members)

/-- **Every value that fits is read back**, wherever it stands. -/
theorem readsBack_of_fits {j : Json} (h : Fits j) : ReadsBack l j := by
  induction h with
  | null =>
    exact readsBack_word "null" null (by simp [readWord?.words])
      (fun level => by rw [text, scalarText]) (by rw [readBack])
  | bool b =>
    cases b with
    | false =>
      exact readsBack_word "false" (bool false) (by simp [readWord?.words])
        (fun level => by rw [text, scalarText]; rfl) (by rw [readBack])
    | true =>
      exact readsBack_word "true" (bool true) (by simp [readWord?.words])
        (fun level => by rw [text, scalarText]; rfl) (by rw [readBack])
  | int h => exact readsBack_int h
  | float x => exact readsBack_float x
  | str s => exact readsBack_str s
  | arr _ ih => exact readsBack_arr ih
  | obj _ ih => exact readsBack_obj ih

/-- **What is written is read back**, in any layout. -/
theorem read_text (l : Layout) {j : Json} (h : Fits j) :
    read (l.text 0 j).toList = .ok (readBack j) := by
  obtain ⟨c, more, htext, hc, -, hbom⟩ := startsValue_text l 0 j
  have hback := readsBack_of_fits (l := l) h 0 (2 * (l.text 0 j).toList.length + 2) [] 0
    (fun _ h => absurd h (by simp)) (by omega)
  rw [List.append_nil] at hback
  have hstay : skipSpace ⟨(l.text 0 j).toList, 0⟩ = ⟨(l.text 0 j).toList, 0⟩ := by
    rw [htext]
    exact skipSpace_stay hc more 0
  have hmark : ¬ (l.text 0 j).toList.head?.map Char.toNat = some 0xFEFF := by
    rw [htext]
    intro heq
    have hnat : c.toNat = 0xFEFF := Option.some.inj heq
    exact hbom (by rw [← hnat, Char.ofNat_toNat])
  unfold read
  rw [if_neg hmark, hstay, hback]
  rfl

/-- **What is written with indentation is read back.** -/
theorem read_indented {j : Json} (h : Fits j) : read (indented j).toList = .ok (readBack j) := by
  rw [indented, ← text_spread]
  exact read_text spread h

/-- A member with a new name is added at the end. -/
theorem setMember_of_not_mem {members : List (String × Json)} {name : String} (value : Json)
    (h : name ∉ members.map (·.1)) : setMember members name value = members ++ [(name, value)] := by
  refine if_neg fun hany => h ?_
  obtain ⟨m, hm, hname⟩ := List.any_eq_true.1 hany
  exact List.mem_map.2 ⟨m, hm, beq_iff_eq.1 hname⟩

/-- **Members with distinct names come back one by one.** -/
theorem readBackMembers_of_nodup {known members : List (String × Json)}
    (h : ((known ++ members).map (·.1)).Nodup) :
    readBackMembers known members = known ++ members.map fun m => (m.1, readBack m.2) := by
  induction members generalizing known with
  | nil => simp [readBackMembers]
  | cons m members ih =>
    have hnew : m.1 ∉ known.map (·.1) := by
      intro hmem
      rw [List.map_append, List.map_cons, List.nodup_append] at h
      exact h.2.2 _ hmem _ List.mem_cons_self rfl
    rw [readBackMembers, setMember_of_not_mem _ hnew, ih (by simpa using h)]
    simp

/-- An object with distinct names comes back as an object with the same names. -/
theorem readBack_obj {members : List (String × Json)} (h : (members.map (·.1)).Nodup) :
    readBack (obj members) = obj (members.map fun m => (m.1, readBack m.2)) := by
  rw [readBack, readBackMembers_of_nodup (by simpa using h), List.nil_append]

/-! ## Depth -/

theorem itemsDepth_le_iff {items : List Json} {n : Nat} :
    itemsDepth items ≤ n ↔ ∀ j ∈ items, j.depth ≤ n := by
  induction items with
  | nil => simp [itemsDepth]
  | cons j items ih => rw [itemsDepth, Nat.max_le, ih, List.forall_mem_cons]

theorem membersDepth_le_iff {members : List (String × Json)} {n : Nat} :
    membersDepth members ≤ n ↔ ∀ m ∈ members, m.2.depth ≤ n := by
  induction members with
  | nil => simp [membersDepth]
  | cons m members ih => rw [membersDepth, Nat.max_le, ih, List.forall_mem_cons]

/-- What holds of members and of a value holds when the value is set among them. -/
theorem forall_setMember {P : Json → Prop} {members : List (String × Json)} {name : String}
    {value : Json} (h : ∀ m ∈ members, P m.2) (hvalue : P value) :
    ∀ m ∈ setMember members name value, P m.2 := by
  unfold setMember
  split
  · intro m hm
    obtain ⟨k, hk, rfl⟩ := List.mem_map.1 hm
    split
    · exact hvalue
    · exact h k hk
  · rw [List.forall_mem_append]
    exact ⟨h, List.forall_mem_singleton.2 hvalue⟩

mutual

/-- **What comes back is no deeper than what was written.** -/
theorem depth_readBack_le : (j : Json) → (readBack j).depth ≤ j.depth
  | arr items => by
    rw [readBack, depth, depth]
    exact Nat.succ_le_succ (itemsDepth_readBackItems_le items)
  | obj members => by
    rw [readBack, depth, depth]
    exact Nat.succ_le_succ (membersDepth_le_iff.2 (depth_of_mem_readBackMembers members
      (by simp) (Nat.le_refl _)))
  | null | bool _ | int _ | float _ | str _ => Nat.le_of_eq (by simp only [readBack, depth])

theorem itemsDepth_readBackItems_le :
    (items : List Json) → itemsDepth (readBackItems items) ≤ itemsDepth items
  | [] => Nat.le_of_eq (by rw [readBackItems])
  | j :: items => by
    have hj := depth_readBack_le j
    have hitems := itemsDepth_readBackItems_le items
    rw [readBackItems, itemsDepth, itemsDepth]
    omega

theorem depth_of_mem_readBackMembers {known : List (String × Json)} {n : Nat} :
    (members : List (String × Json)) → (∀ m ∈ known, m.2.depth ≤ n) → membersDepth members ≤ n →
      ∀ m ∈ readBackMembers known members, m.2.depth ≤ n
  | [], hknown, _ => by rwa [readBackMembers]
  | (name, j) :: members, hknown, h => by
    rw [membersDepth, Nat.max_le] at h
    rw [readBackMembers]
    exact depth_of_mem_readBackMembers members (forall_setMember (P := fun j => j.depth ≤ n) hknown
      (Nat.le_trans (depth_readBack_le j) h.1)) h.2

end

end CodeAudit.Json
