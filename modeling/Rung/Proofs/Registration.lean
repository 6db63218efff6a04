import Rung.Program
import Rung.Proofs.Issuing

/-!
# One namespace of addresses

A unit takes over allocators, each with what it has issued so far, and refuses those whose range
reaches into a range that it has already. So an address of one name belongs to one allocator at
most, and no two devices of a unit have the same name and address.

* `AddressRange.Owns`, `AddressRange.not_owns_of_not_overlaps`: ranges as sets of addresses;
* `AddressRange.Meets`, `AddressRange.EmptyInside`,
  `AddressRange.overlaps_iff_meets_or_emptyInside`: what ranges that overlap have to do with each
  other;
* `LogicUnit.register_of_free`, `LogicUnit.register_of_taken`, `LogicUnit.register_of_refused`,
  `LogicUnit.register_refused_iff`: all that a registration can do;
* `LogicUnit.offer`, `LogicUnit.admitted`: the unit and the allocators it took over;
* `LogicUnit.Registry`, `LogicUnit.registry`: what ties the two to each other;
* `Supply.nodup_tags`: devices of allocators whose ranges do not overlap;
* **`LogicUnit.register_supplies`**: any number of registrations;
* **`LogicUnit.register_refuses_conflicts`**: the registrations that are refused.
-/

namespace Rung

/-! ## Ranges -/

namespace AddressRange

/-- Whether an address lies in a range. -/
def Owns (r : AddressRange) (address : UInt32) : Prop :=
  r.origin.toNat ≤ address.toNat ∧ address.toNat < r.bound

theorem overlaps_iff {r s : AddressRange} : r.overlaps s = true ↔
    r.name = s.name ∧ r.origin.toNat < s.bound ∧ s.origin.toNat < r.bound := by
  simp [overlaps, and_assoc]

theorem not_owns_of_not_overlaps {r s : AddressRange} (h : r.overlaps s = false)
    (hname : r.name = s.name) (address : UInt32) : ¬ (r.Owns address ∧ s.Owns address) := by
  rintro ⟨⟨hr, hr'⟩, ⟨hs, hs'⟩⟩
  have hmeet : r.overlaps s = true :=
    overlaps_iff.mpr ⟨hname, Nat.lt_of_le_of_lt hr hs', Nat.lt_of_le_of_lt hs hr'⟩
  rw [h] at hmeet
  cases hmeet

def Meets (r s : AddressRange) : Prop := ∃ address, r.Owns address ∧ s.Owns address

/-- Whether a range without addresses begins strictly inside another one. -/
def EmptyInside (r s : AddressRange) : Prop :=
  r.size = 0 ∧ s.origin.toNat < r.origin.toNat ∧ r.origin.toNat < s.bound

theorem bound_of_size_eq_zero {r : AddressRange} (h : r.size = 0) : r.bound = r.origin.toNat := by
  simp [bound, h]

theorem origin_lt_bound {r : AddressRange} (h : r.size ≠ 0) : r.origin.toNat < r.bound := by
  have hsize : r.size.toNat ≠ 0 := fun hzero => h (UInt32.toNat_inj.mp hzero)
  unfold bound
  omega

/-- Of two ranges that each begin before the other ends, the later origin lies in both. -/
theorem meets_of_lt_bound {r s : AddressRange} (hr : r.size ≠ 0) (hs : s.size ≠ 0)
    (hrs : r.origin.toNat < s.bound) (hsr : s.origin.toNat < r.bound) : r.Meets s := by
  rcases Nat.le_total r.origin.toNat s.origin.toNat with hle | hle
  · exact ⟨s.origin, ⟨hle, hsr⟩, ⟨Nat.le_refl _, origin_lt_bound hs⟩⟩
  · exact ⟨r.origin, ⟨Nat.le_refl _, origin_lt_bound hr⟩, ⟨hle, hrs⟩⟩

/-- **Ranges of one name overlap** when they have an address in common, and also when one of them
has no addresses and begins strictly inside the other. -/
theorem overlaps_iff_meets_or_emptyInside {r s : AddressRange} : r.overlaps s = true ↔
    r.name = s.name ∧ (r.Meets s ∨ r.EmptyInside s ∨ s.EmptyInside r) := by
  rw [overlaps_iff]
  refine and_congr_right fun _ => ⟨fun ⟨hrs, hsr⟩ => ?_, ?_⟩
  · by_cases hr : r.size = 0
    · rw [bound_of_size_eq_zero hr] at hsr
      exact .inr (.inl ⟨hr, hsr, hrs⟩)
    · by_cases hs : s.size = 0
      · rw [bound_of_size_eq_zero hs] at hrs
        exact .inr (.inr ⟨hs, hrs, hsr⟩)
      · exact .inl (meets_of_lt_bound hr hs hrs hsr)
  · rintro (⟨address, hr, hs⟩ | ⟨hr, hsr, hrs⟩ | ⟨hs, hrs, hsr⟩)
    · exact ⟨Nat.lt_of_le_of_lt hr.1 hs.2, Nat.lt_of_le_of_lt hs.1 hr.2⟩
    · rw [bound_of_size_eq_zero hr]
      exact ⟨hrs, hsr⟩
    · rw [bound_of_size_eq_zero hs]
      exact ⟨hrs, hsr⟩

end AddressRange

/-! ## Registration -/

namespace LogicUnit

/-- **A range that no registered one overlaps** is taken over, after those. -/
theorem register_of_free {u : LogicUnit} {r : AddressRange}
    (h : ∀ registered ∈ u.ranges, registered.overlaps r = false) :
    u.register r = ({ u with ranges := u.ranges ++ [r] }, none) := by
  have hfind : u.ranges.find? (fun registered => registered.overlaps r) = none :=
    List.find?_eq_none.mpr fun registered hmem => by simp [h registered hmem]
  rw [register, hfind]

/-- **A range that some registered one overlaps** is refused, as an overlap, and the unit stays as
it is. -/
theorem register_of_taken {u : LogicUnit} {r : AddressRange}
    (h : ¬ ∀ registered ∈ u.ranges, registered.overlaps r = false) :
    ∃ d, u.register r = (u, some d) ∧ d.problem = .addressRangeOverlap := by
  cases hfind : u.ranges.find? (fun registered => registered.overlaps r) with
  | none =>
    refine absurd (fun registered hmem => ?_) h
    exact Bool.eq_false_iff.mpr (List.find?_eq_none.mp hfind registered hmem)
  | some registered => exact ⟨_, by rw [register, hfind], rfl⟩

theorem register_of_refused {u : LogicUnit} {r : AddressRange} {d : Diagnostic}
    (h : (u.register r).2 = some d) : (u.register r).1 = u := by
  by_cases hfree : ∀ registered ∈ u.ranges, registered.overlaps r = false
  · rw [register_of_free hfree] at h
    cases h
  · obtain ⟨_, htaken, -⟩ := register_of_taken hfree
    rw [htaken]

theorem register_refused_iff {u : LogicUnit} {r : AddressRange} :
    (∃ d, (u.register r).2 = some d ∧ d.problem = .addressRangeOverlap) ↔
      ∃ registered ∈ u.ranges, registered.overlaps r = true := by
  constructor
  · rintro ⟨d, hd, -⟩
    by_cases hfree : ∀ registered ∈ u.ranges, registered.overlaps r = false
    · rw [register_of_free hfree] at hd
      cases hd
    · simpa using hfree
  · rintro ⟨registered, hmem, hmeet⟩
    have htaken : ¬ ∀ registered ∈ u.ranges, registered.overlaps r = false := fun hfree =>
      absurd (hfree registered hmem) (by simp [hmeet])
    obtain ⟨d, hd, hproblem⟩ := register_of_taken htaken
    exact ⟨d, by rw [hd], hproblem⟩

theorem registerAll_append {u u' : LogicUnit} {rs : List AddressRange}
    (h : u.registerAll rs = (u', none)) (rs' : List AddressRange) :
    u.registerAll (rs ++ rs') = u'.registerAll rs' := by
  induction rs generalizing u with
  | nil =>
    cases h
    rfl
  | cons r rs ih =>
    rw [registerAll] at h
    rw [List.cons_append, registerAll]
    rcases hr : u.register r with ⟨u₁, _ | d⟩
    · rw [hr] at h
      exact ih h
    · rw [hr] at h
      cases h

def takeOver (u : LogicUnit) (s : Supply) : LogicUnit × Option Diagnostic :=
  u.register s.allocator.range

def offer (u : LogicUnit) (s : Supply) : LogicUnit := (u.takeOver s).1

def admitted (u : LogicUnit) (s : Supply) : List Supply :=
  if (u.takeOver s).2 = none then [s] else []

/-- What the allocators taken over have to do with the unit. -/
structure Registry (name : String) (taken : List Supply) (u : LogicUnit) : Prop where
  /-- Each of them was taken over when the ones before it had been. -/
  registered : registerAll { name } (taken.map fun s => s.allocator.range) = (u, none)
  made : u = { name, ranges := taken.map fun s => s.allocator.range }
  apart : u.ranges.Pairwise fun r r' => r.overlaps r' = false

namespace Registry

theorem empty (name : String) : Registry name [] { name } where
  registered := rfl
  made := rfl
  apart := List.Pairwise.nil

theorem offer {name : String} {taken : List Supply} {u : LogicUnit} (h : Registry name taken u)
    (s : Supply) : Registry name (taken ++ u.admitted s) (u.offer s) := by
  by_cases hfree : ∀ registered ∈ u.ranges, registered.overlaps s.allocator.range = false
  · have hok : u.takeOver s = ({ u with ranges := u.ranges ++ [s.allocator.range] }, none) :=
      register_of_free hfree
    rw [admitted, LogicUnit.offer, hok, if_pos rfl]
    refine ⟨?_, ?_, ?_⟩
    · rw [List.map_append, registerAll_append h.registered, List.map_singleton, registerAll,
        register_of_free hfree]
      rfl
    · rw [List.map_append, h.made]
      rfl
    · refine List.pairwise_append.mpr ⟨h.apart, List.pairwise_singleton _ _, ?_⟩
      intro r hr r' hr'
      rw [List.mem_singleton.mp hr']
      exact hfree r hr
  · obtain ⟨d, hd, -⟩ := register_of_taken hfree
    rw [admitted, LogicUnit.offer, takeOver, hd, if_neg nofun, List.append_nil]
    exact h

end Registry

/-- **The registry holds after any number of registrations.** -/
theorem registry (name : String) (supplies : List Supply) :
    Registry name (noted offer admitted { name } supplies) (supplies.foldl offer { name }) :=
  noted_induction (fun _ _ s h => h.offer s) (Registry.empty name) supplies

theorem noted_admitted_sublist (supplies : List Supply) (u : LogicUnit) :
    (noted offer admitted u supplies).Sublist supplies := by
  induction supplies generalizing u with
  | nil => exact List.Sublist.slnil
  | cons s supplies ih =>
    have hhead : (u.admitted s).Sublist [s] := by
      rw [admitted]
      split
      · exact List.Sublist.refl [s]
      · exact List.nil_sublist [s]
    exact hhead.append (ih (u.offer s))

end LogicUnit

/-! ## Devices -/

def Device.tag (d : Device) : Tag := ⟨d.name, d.address⟩

namespace Supply

theorem owns_of_mem_issues {s : Supply} {i : Issue} (h : i ∈ s.issues) :
    i.device.tag.name = s.allocator.range.name ∧ s.allocator.range.Owns i.device.tag.address := by
  obtain ⟨-, horigin, hbehind⟩ := s.ledger.behind i h
  have hbound : s.allocator.cursor ≤ s.allocator.bound := by
    rw [s.ledger.bound_eq]
    exact Nat.le_trans s.ledger.le_top (Nat.min_le_left _ _)
  have hstart : s.allocator.range.origin = s.origin := by
    rw [s.ledger.made]
    rfl
  rw [← hstart] at horigin
  have hname : s.allocator.range.name = s.name := s.ledger.name_eq
  exact ⟨(s.ledger.name_of_mem h).trans hname.symm, horigin, Nat.lt_of_lt_of_le hbehind hbound⟩

/-- **No tag is issued twice** by allocators whose ranges do not overlap. -/
theorem nodup_tags {taken : List Supply}
    (h : taken.Pairwise fun s t => s.allocator.range.overlaps t.allocator.range = false) :
    ((taken.flatMap issues).map fun i => i.device.tag).Nodup := by
  refine List.pairwise_map.mpr (List.pairwise_flatMap.mpr ⟨fun s _ => ?_, h.imp fun hst => ?_⟩)
  · -- within one allocator the addresses ascend
    refine s.ledger.ascending.imp fun hlt heq => ?_
    rw [(Tag.mk.inj heq).2] at hlt
    exact UInt32.lt_irrefl _ hlt
  · -- between two of them a common tag would lie in both ranges
    intro i hi j hj heq
    obtain ⟨hname, howns⟩ := owns_of_mem_issues hi
    obtain ⟨hname', howns'⟩ := owns_of_mem_issues hj
    rw [heq] at hname howns
    exact AddressRange.not_owns_of_not_overlaps hst (hname.symm.trans hname') _ ⟨howns, howns'⟩

end Supply

theorem Issue.tags_comments_sublist (issues : List Issue) :
    ((issues.flatMap Issue.comments).map fun c => c.device.tag).Sublist
      (issues.map fun i => i.device.tag) := by
  induction issues with
  | nil => exact List.Sublist.slnil
  | cons i issues ih =>
    have hhead : (i.comments.map fun c => c.device.tag).Sublist [i.device.tag] := by
      obtain ⟨device, comment⟩ := i
      cases comment with
      | none => exact List.nil_sublist _
      | some text => exact List.Sublist.refl _
    rw [List.flatMap_cons, List.map_append, List.map_cons]
    exact hhead.append ih

namespace LogicUnit.Registry

variable {name : String} {taken : List Supply} {u : LogicUnit}

theorem ranges_eq (h : Registry name taken u) :
    u.ranges = taken.map fun s => s.allocator.range := by
  rw [h.made]

theorem comments_eq (h : Registry name taken u) :
    u.comments = taken.flatMap fun s => s.allocator.comments := by
  rw [comments, h.ranges_eq, List.flatMap_map]
  rfl

theorem nodup_tags (h : Registry name taken u) :
    ((taken.flatMap Supply.issues).map fun i => i.device.tag).Nodup := by
  have hapart := h.apart
  rw [h.ranges_eq] at hapart
  exact Supply.nodup_tags (List.pairwise_map.mp hapart)

theorem nodup_tags_comments (h : Registry name taken u) :
    (u.comments.map fun c => c.device.tag).Nodup := by
  have hissues : u.comments = (taken.flatMap Supply.issues).flatMap Issue.comments := by
    rw [h.comments_eq, List.flatMap_assoc]
    exact congrArg (List.flatMap · taken) (funext fun s => s.ledger.comments)
  rw [hissues]
  exact h.nodup_tags.sublist (Issue.tags_comments_sublist _)

end LogicUnit.Registry

/-- **One namespace of addresses for each unit.** What is refused leaves the unit as it is, and no
two devices of the allocators taken over have the same name and address. -/
theorem LogicUnit.register_supplies (name : String) (supplies : List Supply) :
    ∃ u taken, supplies.foldl offer { name } = u ∧
      noted offer admitted { name } supplies = taken ∧ taken.Sublist supplies ∧
      (∀ s, (∃ d, (u.takeOver s).2 = some d ∧ d.problem = .addressRangeOverlap) ↔
        ∃ r ∈ u.ranges, r.overlaps s.allocator.range = true) ∧
      (∀ s d, (u.takeOver s).2 = some d → (u.takeOver s).1 = u) ∧
      registerAll { name } (taken.map fun s => s.allocator.range) = (u, none) ∧
      u.ranges = taken.map (fun s => s.allocator.range) ∧
      u.ranges.Pairwise (fun r r' => r.name = r'.name →
        ∀ address, ¬ (r.Owns address ∧ r'.Owns address)) ∧
      ((taken.flatMap Supply.issues).map fun i => i.device.tag).Nodup ∧
      u.comments = taken.flatMap (fun s => s.allocator.comments) ∧
      (u.comments.map fun c => c.device.tag).Nodup := by
  have h := registry name supplies
  refine ⟨_, _, rfl, rfl, noted_admitted_sublist supplies _, fun s => register_refused_iff,
    fun s d => register_of_refused, h.registered, h.ranges_eq, h.apart.imp ?_, h.nodup_tags,
    h.comments_eq, h.nodup_tags_comments⟩
  intro r r' hapart hname address
  exact AddressRange.not_owns_of_not_overlaps hapart hname address

/-! ## Conflicts -/

namespace LogicUnit

/-- **Which ranges a unit refuses**: those with an address in common with a registered range of
their name, and also an empty range inside another one. -/
theorem register_refuses_conflicts (name : String) (supplies : List Supply) (s : Supply) :
    ∃ u, supplies.foldl offer { name } = u ∧
      ((∃ d, (u.takeOver s).2 = some d ∧ d.problem = .addressRangeOverlap) ↔
        ∃ r ∈ u.ranges, r.name = s.allocator.range.name ∧
          (r.Meets s.allocator.range ∨
            r.EmptyInside s.allocator.range ∨ s.allocator.range.EmptyInside r)) ∧
      ((∃ d, u.takeOver s = (u, some d) ∧ d.problem = .addressRangeOverlap) ∨
        u.takeOver s = ({ u with ranges := u.ranges ++ [s.allocator.range] }, none)) ∧
      (s.allocator.range.size ≠ 0 → (∀ r ∈ u.ranges, r.size ≠ 0) →
        ((∃ d, (u.takeOver s).2 = some d ∧ d.problem = .addressRangeOverlap) ↔
          ∃ r ∈ u.ranges, r.name = s.allocator.range.name ∧ r.Meets s.allocator.range)) := by
  generalize supplies.foldl offer { name } = u
  have hrefused : (∃ d, (u.takeOver s).2 = some d ∧ d.problem = .addressRangeOverlap) ↔
      ∃ r ∈ u.ranges, r.overlaps s.allocator.range = true := register_refused_iff
  refine ⟨u, rfl, ?_, ?_, fun hsize hsizes => ?_⟩
  · rw [hrefused]
    simp only [AddressRange.overlaps_iff_meets_or_emptyInside]
  · by_cases hfree : ∀ r ∈ u.ranges, r.overlaps s.allocator.range = false
    · exact .inr (register_of_free hfree)
    · exact .inl (register_of_taken hfree)
  · rw [hrefused]
    refine exists_congr fun r => and_congr_right fun hr => ?_
    rw [AddressRange.overlaps_iff_meets_or_emptyInside]
    -- a range that has addresses lies inside no other as an empty one does
    have hinside : ¬ (r.EmptyInside s.allocator.range ∨ s.allocator.range.EmptyInside r) := by
      rintro (h | h)
      · exact hsizes r hr h.1
      · exact hsize h.1
    rw [or_iff_left hinside]

def relaySupply : Supply := ⟨.contact, "M", 8, 0, []⟩

/-- No relays, from the middle of the eight on. -/
def emptySupply : Supply := ⟨.contact, "M", 0, 4, []⟩

/-- A range without addresses is refused in the middle of another one, with which it has no address
in common. -/
theorem register_refuses_emptySupply :
    ∃ u, [relaySupply].foldl offer { name := "main" } = u ∧
      (∃ d, u.takeOver emptySupply = (u, some d) ∧ d.problem = .addressRangeOverlap) ∧
      ¬ ∃ r ∈ u.ranges, r.name = emptySupply.allocator.range.name ∧
        r.Meets emptySupply.allocator.range := by
  refine ⟨_, rfl, ⟨_, rfl, rfl⟩, ?_⟩
  rintro ⟨r, -, -, address, -, hlow, hhigh⟩
  exact absurd (Nat.lt_of_le_of_lt hlow hhigh) (by decide)

end LogicUnit

end Rung
