import Mathlib.Data.List.Forall2
import Rung.Proofs.Footprint

/-!
# The text of a condition can be read back

A condition is written without any mark of where a leaf ends, and its outermost operator stands only
between its children. The text still tells the whole tree, as long as the leaves bring in no space
and no bracket of their own: a child that is followed by a separator, by a closing bracket or by
nothing ends where the first of these stands outside its own brackets.

* `Plain`, `Condition.PlainLeaves`: texts without spaces and brackets;
* `Condition.Alike`: trees of the same shape with the same texts at the leaves;
* `Condition.childChars`, `Condition.furtherChars`: the text of a junction, child by child;
* `Stops`, `Closes`: what can follow a child, and a junction;
* `Condition.Readable`: a child's text tells the child, whatever follows;
* `Condition.readable_leaf`, `Condition.readable_junction`: one case per kind of tree;
* **`Condition.text_eq_iff_alike`**: equal texts are those of alike conditions.
-/

namespace Rung

/-! ## Plain texts -/

def Plain (text : String) : Prop := ∀ x ∈ text.toList, x ≠ ' ' ∧ x ≠ '(' ∧ x ≠ ')'

-- through the list, since a general instance may try every character there is
instance (text : String) : Decidable (Plain text) := List.decidableBAll _ text.toList

/-- What can follow a child of a junction: a space, a closing bracket or nothing. -/
def Stops (rest : List Char) : Prop := ∀ x ∈ rest.head?, x = ' ' ∨ x = ')'

/-- What can follow a junction: a closing bracket or nothing. -/
def Closes (rest : List Char) : Prop := ∀ x ∈ rest.head?, x = ')'

theorem Closes.stops {rest : List Char} (h : Closes rest) : Stops rest :=
  fun x hx => .inr (h x hx)

theorem closes_nil : Closes [] := nofun

theorem closes_cons (rest : List Char) : Closes (')' :: rest) := by
  rintro x ⟨⟩
  rfl

/-- A plain text does not reach into what can follow it. -/
theorem Plain.eq_nil {text : String} (h : Plain text) {u v rest : List Char}
    (htext : text.toList = u ++ v) (hstop : Stops (v ++ rest)) : v = [] := by
  cases v with
  | nil => rfl
  | cons x v =>
    obtain ⟨hspace, -, hclose⟩ := h x (by simp [htext])
    exact absurd (hstop x rfl) (by simp [hspace, hclose])

/-- **A plain text tells itself**, followed by anything that can follow it. -/
theorem Plain.append_inj {text text' : String} (h : Plain text) (h' : Plain text')
    {rest rest' : List Char} (hrest : Stops rest) (hrest' : Stops rest')
    (heq : text.toList ++ rest = text'.toList ++ rest') : text = text' ∧ rest = rest' := by
  rcases List.append_eq_append_iff.mp heq with ⟨v, htext, rfl⟩ | ⟨v, htext, rfl⟩
  · obtain rfl := h'.eq_nil htext hrest
    exact ⟨String.toList_injective (by simp [htext]), rfl⟩
  · obtain rfl := h.eq_nil htext hrest'
    exact ⟨String.toList_injective (by simp [htext]), rfl⟩

theorem Plain.append_ne {text : String} (h : Plain text) {rest : List Char} (hrest : Stops rest)
    (chars : List Char) : text.toList ++ rest ≠ '(' :: chars := by
  intro heq
  cases htext : text.toList with
  | nil =>
    rw [htext, List.nil_append] at heq
    subst heq
    exact absurd (hrest '(' rfl) (by decide)
  | cons x u =>
    rw [htext, List.cons_append, List.cons.injEq] at heq
    exact (h x (by simp [htext])).2.1 heq.1

namespace Condition

/-! ## Alike conditions -/

/-- The conditions are trees of the same shape, with the same operators and with leaves that are
written alike. -/
inductive Alike : Condition → Condition → Prop
  | leaf {a b : Bit} (text : a.text = b.text) : Alike (leaf a) (leaf b)
  | junction {op : Operator} {c₁ c₂ d₁ d₂ : Condition} {cs ds : List Condition}
      (children : List.Forall₂ Alike (c₁ :: c₂ :: cs) (d₁ :: d₂ :: ds)) :
      Alike (junction op c₁ c₂ cs) (junction op d₁ d₂ ds)

theorem Alike.isJunction_eq {c d : Condition} (h : Alike c d) : c.isJunction = d.isJunction := by
  cases h with
  | leaf _ | junction _ => rfl

mutual

theorem text_eq_of_alike : ∀ (c : Condition) {d : Condition}, Alike c d → c.text = d.text
  | leaf a, _, h => by
    cases h with
    | leaf htext => exact htext
  | junction op c₁ c₂ cs, _, h => by
    cases h with
    | junction h =>
      rw [List.forall₂_cons, List.forall₂_cons] at h
      obtain ⟨h₁, h₂, hs⟩ := h
      rw [text, text, text_eq_of_alike c₁ h₁, text_eq_of_alike c₂ h₂, h₁.isJunction_eq,
        h₂.isJunction_eq, childTexts_eq_of_alike cs hs]

theorem childTexts_eq_of_alike : ∀ (cs : List Condition) {ds : List Condition},
    List.Forall₂ Alike cs ds → childTexts cs = childTexts ds
  | [], _, h => by
    cases h
    rfl
  | c :: cs, _, h => by
    cases h with
    | cons h hs =>
      rw [childTexts, childTexts, text_eq_of_alike c h, h.isJunction_eq,
        childTexts_eq_of_alike cs hs]

end

/-! ## The text of a junction, child by child -/

def childChars (c : Condition) : List Char := (childText c.isJunction c.text).toList

def furtherChars (op : Operator) (cs : List Condition) : List Char :=
  cs.flatMap fun c => (separator op).toList ++ c.childChars

theorem childChars_leaf (b : Bit) : (leaf b).childChars = b.text.toList := rfl

theorem childChars_junction (op : Operator) (first second : Condition) (rest : List Condition) :
    (junction op first second rest).childChars =
      '(' :: ((junction op first second rest).text.toList ++ [')']) := by
  simp [childChars, childText, isJunction]

theorem furtherChars_cons (op : Operator) (c : Condition) (cs : List Condition) :
    furtherChars op (c :: cs) = (separator op).toList ++ (c.childChars ++ furtherChars op cs) := by
  rw [furtherChars, List.flatMap_cons, List.append_assoc, furtherChars]

theorem toList_intercalate_childTexts (op : Operator) (c : Condition) (cs : List Condition) :
    ((separator op).intercalate (childTexts (c :: cs))).toList =
      c.childChars ++ furtherChars op cs := by
  induction cs generalizing c with
  | nil => simp [childTexts, furtherChars, childChars]
  | cons d cs ih =>
    have hrest := ih d
    rw [childTexts] at hrest
    rw [childTexts, childTexts, String.intercalate_cons_cons, String.toList_append,
      String.toList_append, hrest, furtherChars_cons, List.append_assoc]
    rfl

theorem toList_text_junction (op : Operator) (first second : Condition) (rest : List Condition) :
    (junction op first second rest).text.toList =
      first.childChars ++ furtherChars op (second :: rest) :=
  toList_intercalate_childTexts op first (second :: rest)

theorem operator_eq_of_separator {op op' : Operator} {chars chars' : List Char}
    (h : (separator op).toList ++ chars = (separator op').toList ++ chars') : op = op' := by
  cases op <;> cases op' <;> simp_all [separator]

theorem head?_furtherChars_cons (op : Operator) (c : Condition) (cs : List Condition)
    (chars : List Char) : (furtherChars op (c :: cs) ++ chars).head? = some ' ' := by
  cases op <;> simp [furtherChars_cons, separator]

theorem stops_furtherChars (op : Operator) (cs : List Condition) {chars : List Char}
    (h : Closes chars) : Stops (furtherChars op cs ++ chars) := by
  cases cs with
  | nil => exact h.stops
  | cons c cs =>
    intro x hx
    rw [head?_furtherChars_cons] at hx
    exact .inl (Option.mem_some.mp hx).symm

theorem furtherChars_cons_ne {op : Operator} {c : Condition} {cs : List Condition}
    {chars chars' : List Char} (h : Closes chars') :
    furtherChars op (c :: cs) ++ chars ≠ chars' := by
  rintro rfl
  exact absurd (h ' ' (head?_furtherChars_cons op c cs chars)) (by decide)

/-! ## Reading a condition -/

def PlainLeaves (c : Condition) : Prop := ∀ b ∈ c.leaves, Plain b.text

instance (c : Condition) : Decidable c.PlainLeaves := List.decidableBAll _ c.leaves

theorem forall_mem_leavesList {P : Bit → Prop} {cs : List Condition} :
    (∀ b ∈ leavesList cs, P b) ↔ ∀ c ∈ cs, ∀ b ∈ c.leaves, P b := by
  induction cs with
  | nil => simp [leavesList]
  | cons c cs ih => simp only [leavesList, List.forall_mem_append, ih, List.forall_mem_cons]

theorem PlainLeaves.children {op : Operator} {first second : Condition} {rest : List Condition}
    (h : (junction op first second rest).PlainLeaves) :
    ∀ c ∈ first :: second :: rest, c.PlainLeaves := by
  simpa only [PlainLeaves, leaves, List.forall_mem_append, forall_mem_leavesList,
    List.forall_mem_cons] using h

/-- A child's text, followed by anything that can follow it, tells the child and what follows. -/
def Readable (c : Condition) : Prop :=
  ∀ (d : Condition) (chars chars' : List Char), c.PlainLeaves → d.PlainLeaves → Stops chars →
    Stops chars' → c.childChars ++ chars = d.childChars ++ chars' → Alike c d ∧ chars = chars'

/-- Further children are read one after another, up to the end of the junction. -/
theorem forall₂_of_furtherChars {op : Operator} {cs ds : List Condition} {chars chars' : List Char}
    (hread : ∀ c ∈ cs, c.Readable) (hcs : ∀ c ∈ cs, c.PlainLeaves) (hds : ∀ d ∈ ds, d.PlainLeaves)
    (hend : Closes chars) (hend' : Closes chars')
    (h : furtherChars op cs ++ chars = furtherChars op ds ++ chars') :
    List.Forall₂ Alike cs ds ∧ chars = chars' := by
  induction cs generalizing ds with
  | nil =>
    cases ds with
    | nil => exact ⟨.nil, h⟩
    | cons d ds => exact absurd h.symm (furtherChars_cons_ne hend)
  | cons c cs ih =>
    cases ds with
    | nil => exact absurd h (furtherChars_cons_ne hend')
    | cons d ds =>
      rw [List.forall_mem_cons] at hread hcs hds
      simp only [furtherChars_cons, List.append_assoc, List.append_cancel_left_eq] at h
      obtain ⟨hhead, htail⟩ := hread.1 d _ _ hcs.1 hds.1 (stops_furtherChars op cs hend)
        (stops_furtherChars op ds hend') h
      obtain ⟨halike, hchars⟩ := ih hread.2 hcs.2 hds.2 htail
      exact ⟨.cons hhead halike, hchars⟩

/-- **A junction's text tells its children**, once each of them can be read. The separator behind
the first child tells the operator. -/
theorem alike_junction_of_text {op op' : Operator} {c₁ c₂ d₁ d₂ : Condition}
    {cs ds : List Condition} {chars chars' : List Char}
    (hread : ∀ c ∈ c₁ :: c₂ :: cs, c.Readable) (hc : (junction op c₁ c₂ cs).PlainLeaves)
    (hd : (junction op' d₁ d₂ ds).PlainLeaves) (hend : Closes chars) (hend' : Closes chars')
    (h : (junction op c₁ c₂ cs).text.toList ++ chars =
      (junction op' d₁ d₂ ds).text.toList ++ chars') :
    Alike (junction op c₁ c₂ cs) (junction op' d₁ d₂ ds) ∧ chars = chars' := by
  have hcs := List.forall_mem_cons.mp hc.children
  have hds := List.forall_mem_cons.mp hd.children
  rw [List.forall_mem_cons] at hread
  rw [toList_text_junction, toList_text_junction, List.append_assoc, List.append_assoc] at h
  obtain ⟨hfirst, hfurther⟩ := hread.1 d₁ _ _ hcs.1 hds.1
    (stops_furtherChars op (c₂ :: cs) hend) (stops_furtherChars op' (d₂ :: ds) hend') h
  obtain rfl : op = op' := by
    simp only [furtherChars_cons, List.append_assoc] at hfurther
    exact operator_eq_of_separator hfurther
  obtain ⟨halike, hchars⟩ :=
    forall₂_of_furtherChars hread.2 hcs.2 hds.2 hend hend' hfurther
  exact ⟨.junction (.cons hfirst halike), hchars⟩

theorem readable_leaf (b : Bit) : (leaf b).Readable := by
  intro d chars chars' hb hd hstop hstop' h
  have hplain : Plain b.text := hb b List.mem_cons_self
  rw [childChars_leaf] at h
  cases d with
  | leaf b' =>
    rw [childChars_leaf] at h
    obtain ⟨htext, hchars⟩ := hplain.append_inj (hd b' List.mem_cons_self) hstop hstop' h
    exact ⟨.leaf htext, hchars⟩
  | junction op first second rest =>
    rw [childChars_junction] at h
    exact absurd h (hplain.append_ne hstop _)

theorem readable_junction {op : Operator} {first second : Condition} {rest : List Condition}
    (hread : ∀ c ∈ first :: second :: rest, c.Readable) :
    (junction op first second rest).Readable := by
  intro d chars chars' hc hd hstop hstop' h
  rw [childChars_junction] at h
  cases d with
  | leaf b =>
    have hplain : Plain b.text := hd b List.mem_cons_self
    rw [childChars_leaf] at h
    exact absurd h.symm (hplain.append_ne hstop' _)
  | junction op' first' second' rest' =>
    -- behind the opening brackets, the closing ones are what follows the two junctions
    rw [childChars_junction, List.cons_append, List.cons_append, List.cons.injEq,
      List.append_assoc, List.append_assoc] at h
    obtain ⟨halike, hchars⟩ := alike_junction_of_text hread hc hd (closes_cons chars)
      (closes_cons chars') h.2
    exact ⟨halike, (List.cons.inj hchars).2⟩

mutual

/-- **Every condition can be read as a child.** -/
theorem readable : ∀ c : Condition, c.Readable
  | leaf b => readable_leaf b
  | junction op first second rest => by
    refine readable_junction ?_
    simp only [List.forall_mem_cons]
    exact ⟨readable first, readable second, readable_of_mem rest⟩

theorem readable_of_mem : ∀ cs : List Condition, ∀ c ∈ cs, c.Readable
  | [] => nofun
  | c :: cs => by
    rw [List.forall_mem_cons]
    exact ⟨readable c, readable_of_mem cs⟩

end

theorem text_junction_ne {b : Bit} (h : Plain b.text) (op : Operator) (first second : Condition)
    (rest : List Condition) : (junction op first second rest).text ≠ b.text := by
  intro htext
  have hspace : ' ' ∈ (junction op first second rest).text.toList := by
    have hfurther := List.mem_of_mem_head? (head?_furtherChars_cons op second rest [])
    rw [List.append_nil] at hfurther
    rw [toList_text_junction]
    exact List.mem_append_right _ hfurther
  rw [htext] at hspace
  exact (h ' ' hspace).1 rfl

/-- **The text of a condition is unambiguous**, as long as no leaf is written with a space or a
bracket. -/
theorem text_eq_iff_alike {c d : Condition} (hc : c.PlainLeaves) (hd : d.PlainLeaves) :
    c.text = d.text ↔ Alike c d := by
  refine ⟨fun h => ?_, text_eq_of_alike c⟩
  cases c with
  | leaf a =>
    cases d with
    | leaf b => exact .leaf h
    | junction op first second rest =>
      exact absurd h.symm (text_junction_ne (hc a List.mem_cons_self) op first second rest)
  | junction op first second rest =>
    cases d with
    | leaf b => exact absurd h (text_junction_ne (hd b List.mem_cons_self) op first second rest)
    | junction op' first' second' rest' =>
      have hread := readable_of_mem (first :: second :: rest)
      exact (alike_junction_of_text hread hc hd closes_nil closes_nil (by rw [h])).1

-- a name with spaces can pass for a junction
example :
    (leaf (.contact (.relay ⟨"M0 & M", 1⟩) false)).text =
      ((leaf (.contact (.relay ⟨"M", 0⟩) false)).and
        (leaf (.contact (.relay ⟨"M", 1⟩) false))).text := by
  decide

/-- A condition with junctions in each other. Its text does not show what the start button is, nor
the value of a limit that has a name. -/
def pumpGate (start : Site) (limit : Word) : Condition :=
  (leaf (.contact start false)).and
    (((leaf (.contact (.relay ⟨"M", 1⟩) true)).and
      (leaf (.compare (.timer ⟨"T", 0⟩ limit) .ge limit))).or
      (leaf (.contact (.relay ⟨"M", 2⟩) false)))

theorem text_eq_iff_alike_pumpGate :
    pumpGate (.input ⟨"X", 0⟩) (.constant "" 30) ≠ pumpGate (.relay ⟨"X", 0⟩) (.constant "K30" 5) ∧
      (pumpGate (.input ⟨"X", 0⟩) (.constant "" 30)).PlainLeaves ∧
      (pumpGate (.relay ⟨"X", 0⟩) (.constant "K30" 5)).PlainLeaves ∧
      (pumpGate (.input ⟨"X", 0⟩) (.constant "" 30)).text = "X0 & ((!M1 & T0>=K30) | M2)" ∧
      Alike (pumpGate (.input ⟨"X", 0⟩) (.constant "" 30))
        (pumpGate (.relay ⟨"X", 0⟩) (.constant "K30" 5)) := by
  have hc : (pumpGate (.input ⟨"X", 0⟩) (.constant "" 30)).PlainLeaves := by decide
  have hd : (pumpGate (.relay ⟨"X", 0⟩) (.constant "K30" 5)).PlainLeaves := by decide
  exact ⟨by decide, hc, hd, by decide, (text_eq_iff_alike hc hd).mp (by decide)⟩

end Condition

end Rung
