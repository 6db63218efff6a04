import Rung.Allocator
import Rung.Proofs.Noted

/-!
# Issuing addresses

An allocator is asked for addresses, for the next one or for one further on, any number of times.
The cursor only moves forward, past the address just issued, so no address is issued twice; it never
leaves the range, nor the 32-bit addresses where the range reaches beyond them. A request that is
refused leaves no trace.

* `Request`, `Allocator.serve`: the two kinds of request;
* `Allocator.top`, `Request.Open`: the end of what can be issued, and the requests that are met;
* `Allocator.serve_of_open`, `Allocator.serve_of_not_open`: all that a request can do;
* `Issue`, `Supply`: an issued device with its comment, an allocator with the requests it served;
* `Supply.Ledger`, `Supply.ledger`: what ties the issues of a run to the allocator it leaves;
* **`Supply.allocator_serves`**: any number of requests.
-/

namespace Rung

/-! ## Requests -/

inductive Request where
  /-- For the next address. -/
  | next (comment : Option String)
  /-- For a given address, ahead of the cursor. -/
  | skipTo (target : UInt32) (comment : Option String)
  deriving DecidableEq, Repr

def Request.comment : Request → Option String
  | next comment | skipTo _ comment => comment

def Request.wanted (cursor : Nat) : Request → Nat
  | next _ => cursor
  | skipTo target _ => target.toNat

namespace Allocator

def serve (a : Allocator) : Request → Allocator × Except Diagnostic Tag
  | .next comment => a.allocate comment
  | .skipTo target comment => a.allocateAt target comment

/-- The end of the addresses that can be issued, exclusive: that of the range, or of all 32-bit
addresses if the range goes on beyond them. -/
def top (a : Allocator) : Nat := min a.bound UInt32.size

theorem bound_lt (a : Allocator) : a.bound < UInt64.size := by
  calc a.bound
      < UInt32.size + UInt32.size := Nat.add_lt_add a.origin.toNat_lt a.size.toNat_lt
    _ < UInt64.size := by decide

end Allocator

/-- Whether an allocator can meet a request. -/
def Request.Open (a : Allocator) : Request → Prop
  | next _ => a.cursor < a.top
  | skipTo target _ => a.cursor < target.toNat ∧ target.toNat < a.bound

theorem Request.Open.wanted_lt {a : Allocator} {r : Request} (h : r.Open a) :
    r.wanted a.cursor < a.bound ∧ r.wanted a.cursor < UInt32.size := by
  cases r with
  | next comment => exact Nat.lt_min.mp h
  | skipTo target comment => exact ⟨h.2, target.toNat_lt⟩

/-- The address asked for is not cut short. -/
theorem Request.Open.toNat_wanted {a : Allocator} {r : Request} (h : r.Open a) :
    (UInt32.ofNat (r.wanted a.cursor)).toNat = r.wanted a.cursor :=
  UInt32.toNat_ofNat_of_lt' h.wanted_lt.2

theorem Request.Open.cursor_le {a : Allocator} {r : Request} (h : r.Open a) :
    a.cursor ≤ r.wanted a.cursor := by
  cases r with
  | next comment => exact Nat.le_refl _
  | skipTo target comment => exact Nat.le_of_lt h.1

namespace Allocator

theorem issue_of_lt {a : Allocator} (h : a.cursor < UInt32.size) (comment : Option String) :
    a.issue comment =
      ({ a with
          cursor := a.cursor + 1
          comments := a.comments ++
            comment.toList.map fun text => ⟨a.device ⟨a.name, .ofNat a.cursor⟩, text⟩ },
        .ok ⟨a.name, .ofNat a.cursor⟩) := by
  rw [issue, if_pos h]

/-- **A request that can be met** issues the address asked for, notes the comment and moves the
cursor past the address. -/
theorem serve_of_open {a : Allocator} {r : Request} (h : r.Open a) :
    a.serve r =
      ({ a with
          cursor := r.wanted a.cursor + 1
          comments := a.comments ++
            r.comment.toList.map fun text =>
              ⟨a.device ⟨a.name, .ofNat (r.wanted a.cursor)⟩, text⟩ },
        .ok ⟨a.name, .ofNat (r.wanted a.cursor)⟩) := by
  cases r with
  | next comment =>
    obtain ⟨hbound, hsize⟩ : a.cursor < a.bound ∧ a.cursor < UInt32.size := h.wanted_lt
    rw [serve, allocate, if_pos hbound, issue_of_lt hsize]
    rfl
  | skipTo target comment =>
    have hahead : a.cursor < target.toNat ∧ target.toNat < a.bound := h
    rw [serve, allocateAt, if_pos hahead]
    exact issue_of_lt (a := { a with cursor := target.toNat }) target.toNat_lt comment

/-- **A request that cannot be met** is refused and leaves the allocator as it was. -/
theorem serve_of_not_open {a : Allocator} {r : Request} (h : ¬ r.Open a) :
    ∃ d, a.serve r = (a, .error d) := by
  cases r with
  | next comment =>
    rw [serve, allocate]
    split
    case isTrue hbound =>
      -- the range goes on, yet its next address has more than 32 bits
      have hsize : ¬ a.cursor < UInt32.size := fun hsize => h (Nat.lt_min.mpr ⟨hbound, hsize⟩)
      exact ⟨_, by rw [issue, if_neg hsize]⟩
    case isFalse => exact ⟨_, rfl⟩
  | skipTo target comment =>
    have hbehind : ¬ (a.cursor < target.toNat ∧ target.toNat < a.bound) := h
    rw [serve, allocateAt, if_neg hbehind]
    exact ⟨_, rfl⟩

theorem serve_refused_iff {a : Allocator} {r : Request} :
    (∃ d, (a.serve r).2 = .error d) ↔ ¬ r.Open a := by
  constructor
  · rintro ⟨d, hd⟩ hopen
    rw [serve_of_open hopen] at hd
    cases hd
  · intro h
    obtain ⟨d, hd⟩ := serve_of_not_open h
    exact ⟨d, by rw [hd]⟩

theorem serve_of_error {a : Allocator} {r : Request} {d : Diagnostic}
    (h : (a.serve r).2 = .error d) : (a.serve r).1 = a := by
  obtain ⟨d', hd'⟩ := serve_of_not_open (serve_refused_iff.mp ⟨d, h⟩)
  rw [hd']

theorem serve_of_ok {a : Allocator} {r : Request} {tag : Tag} (h : (a.serve r).2 = .ok tag) :
    tag.name = a.name ∧ tag.address.toNat = r.wanted a.cursor ∧
      (a.serve r).1.cursor = tag.address.toNat + 1 := by
  by_cases hopen : r.Open a
  · rw [serve_of_open hopen] at h ⊢
    cases h
    exact ⟨rfl, hopen.toNat_wanted, by rw [hopen.toNat_wanted]⟩
  · obtain ⟨d, hd⟩ := serve_of_not_open hopen
    rw [hd] at h
    cases h

end Allocator

/-! ## Runs of requests -/

theorem Stock.name_device (stock : Stock) (tag : Tag) : (stock.device tag).name = tag.name := by
  cases stock <;> rfl

theorem Stock.address_device (stock : Stock) (tag : Tag) :
    (stock.device tag).address = tag.address := by
  cases stock <;> rfl

/-- An issued device, with the comment of the request that it was issued for. -/
structure Issue where
  device : Device
  comment : Option String
  deriving DecidableEq, Repr

def Issue.comments (i : Issue) : List Comment := i.comment.toList.map fun text => ⟨i.device, text⟩

namespace Allocator

def issued (a : Allocator) (r : Request) : List Issue :=
  match (a.serve r).2 with
  | .ok tag => [⟨a.device tag, r.comment⟩]
  | .error _ => []

theorem issued_of_open {a : Allocator} {r : Request} (h : r.Open a) :
    a.issued r = [⟨a.device ⟨a.name, .ofNat (r.wanted a.cursor)⟩, r.comment⟩] := by
  rw [issued, serve_of_open h]

theorem issued_of_not_open {a : Allocator} {r : Request} (h : ¬ r.Open a) : a.issued r = [] := by
  obtain ⟨d, hd⟩ := serve_of_not_open h
  rw [issued, hd]

end Allocator

/-- An allocator as it was made, with the requests it has been asked since. -/
structure Supply where
  stock : Stock
  name : String
  size : UInt32
  origin : UInt32
  requests : List Request
  deriving DecidableEq, Repr

namespace Supply

def fresh (s : Supply) : Allocator :=
  { stock := s.stock, name := s.name, size := s.size, origin := s.origin }

def allocator (s : Supply) : Allocator := s.requests.foldl (fun a r => (a.serve r).1) s.fresh

def issues (s : Supply) : List Issue :=
  noted (fun a r => (a.serve r).1) Allocator.issued s.fresh s.requests

/-- The end of the addresses that can be issued, exclusive. -/
def top (s : Supply) : Nat := min (s.origin.toNat + s.size.toNat) UInt32.size

/-- What the issues so far have to do with the allocator that is left. -/
structure Ledger (s : Supply) (issues : List Issue) (a : Allocator) : Prop where
  /-- Only the cursor and the comments have changed. -/
  made : a = { s.fresh with cursor := a.cursor, comments := a.comments }
  origin_le : s.origin.toNat ≤ a.cursor
  le_top : a.cursor ≤ s.top
  ascending : issues.Pairwise fun i j => i.device.address < j.device.address
  /-- Every issued device is of the allocator's stock and name, at an address behind the cursor. -/
  behind : ∀ i ∈ issues, i.device = s.stock.device ⟨s.name, i.device.address⟩ ∧
    s.origin.toNat ≤ i.device.address.toNat ∧ i.device.address.toNat < a.cursor
  comments : a.comments = issues.flatMap Issue.comments

namespace Ledger

variable {s : Supply} {issues : List Issue} {a : Allocator}

theorem stock_eq (h : s.Ledger issues a) : a.stock = s.stock := by rw [h.made]; rfl

theorem name_eq (h : s.Ledger issues a) : a.name = s.name := by rw [h.made]; rfl

theorem bound_eq (h : s.Ledger issues a) : a.bound = s.origin.toNat + s.size.toNat := by
  rw [h.made]
  rfl

theorem top_eq (h : s.Ledger issues a) : a.top = s.top := by
  rw [Allocator.top, h.bound_eq]
  rfl

theorem name_of_mem (h : s.Ledger issues a) {i : Issue} (hi : i ∈ issues) :
    i.device.name = s.name := by
  rw [(h.behind i hi).1, Stock.name_device]

theorem fresh (s : Supply) : s.Ledger [] s.fresh where
  made := rfl
  origin_le := Nat.le_refl _
  le_top := Nat.le_min.mpr ⟨Nat.le_add_right _ _, Nat.le_of_lt s.origin.toNat_lt⟩
  ascending := List.Pairwise.nil
  behind := nofun
  comments := rfl

/-- A request keeps the ledger: what it issues lies ahead of all that was issued before. -/
theorem serve (h : s.Ledger issues a) (r : Request) :
    s.Ledger (issues ++ a.issued r) (a.serve r).1 := by
  by_cases hopen : r.Open a
  · obtain ⟨hbound, hsize⟩ := hopen.wanted_lt
    have hcursor := hopen.cursor_le
    have horigin := h.origin_le
    have haddress := hopen.toNat_wanted
    rw [Allocator.issued_of_open hopen, Allocator.serve_of_open hopen]
    refine ⟨?_, ?_, ?_, ?_, ?_, ?_⟩
    · rw [h.made]
    · exact Nat.le_trans horigin (Nat.le_succ_of_le hcursor)
    · exact Nat.le_min.mpr ⟨h.bound_eq ▸ hbound, hsize⟩
    · refine List.pairwise_append.mpr ⟨h.ascending, List.pairwise_singleton _ _, ?_⟩
      intro i hi j hj
      obtain rfl := List.mem_singleton.mp hj
      have hbehind := (h.behind i hi).2.2
      rw [Allocator.device, Stock.address_device, UInt32.lt_iff_toNat_lt, haddress]
      omega
    · intro i hi
      rcases List.mem_append.mp hi with hi | hi
      · obtain ⟨hdevice, hfrom, hbehind⟩ := h.behind i hi
        exact ⟨hdevice, hfrom, Nat.lt_succ_of_lt (Nat.lt_of_lt_of_le hbehind hcursor)⟩
      · obtain rfl := List.mem_singleton.mp hi
        rw [Allocator.device, Stock.address_device, haddress, h.stock_eq, h.name_eq]
        exact ⟨rfl, Nat.le_trans horigin hcursor, Nat.lt_succ_self _⟩
    · rw [List.flatMap_append, ← h.comments, List.flatMap_singleton]
      rfl
  · obtain ⟨d, hd⟩ := Allocator.serve_of_not_open hopen
    rw [Allocator.issued_of_not_open hopen, List.append_nil, hd]
    exact h

end Ledger

/-- **The ledger holds after any number of requests.** -/
theorem ledger (s : Supply) : s.Ledger s.issues s.allocator :=
  noted_induction (fun _ _ r h => h.serve r) (Ledger.fresh s) s.requests

/-- **Allocators over whole runs.** Addresses ascend within the range; a request is refused exactly
when no address can meet it, and then the allocator is as it was. -/
theorem allocator_serves (s : Supply) :
    s.issues.Pairwise (fun i j => i.device.address < j.device.address) ∧
    (∀ i ∈ s.issues, i.device = s.stock.device ⟨s.name, i.device.address⟩ ∧
      i.device.name = s.name ∧ s.origin.toNat ≤ i.device.address.toNat ∧
      i.device.address.toNat < min (s.origin.toNat + s.size.toNat) UInt32.size) ∧
    (s.origin.toNat ≤ s.allocator.cursor ∧
      s.allocator.cursor ≤ min (s.origin.toNat + s.size.toNat) UInt32.size) ∧
    (∀ comment, (∃ d, (s.allocator.allocate comment).2 = .error d) ↔
      min (s.origin.toNat + s.size.toNat) UInt32.size ≤ s.allocator.cursor) ∧
    (∀ comment tag, (s.allocator.allocate comment).2 = .ok tag →
      tag.name = s.name ∧ tag.address.toNat = s.allocator.cursor) ∧
    (∀ target comment, (∃ d, (s.allocator.allocateAt target comment).2 = .error d) ↔
      ¬ (s.allocator.cursor < target.toNat ∧
        target.toNat < s.origin.toNat + s.size.toNat)) ∧
    (∀ target comment tag, (s.allocator.allocateAt target comment).2 = .ok tag →
      tag = ⟨s.name, target⟩) ∧
    (∀ r tag, (s.allocator.serve r).2 = .ok tag →
      (s.allocator.serve r).1.cursor = tag.address.toNat + 1) ∧
    (∀ r d, (s.allocator.serve r).2 = .error d → (s.allocator.serve r).1 = s.allocator) ∧
    s.allocator.comments = s.issues.flatMap (fun i =>
      i.comment.toList.map fun text => ⟨i.device, text⟩) ∧
    s.origin.toNat + s.size.toNat < UInt64.size ∧ s.allocator.cursor + 1 < UInt64.size := by
  have h := s.ledger
  have htop := h.le_top
  have hcursor : s.allocator.cursor ≤ UInt32.size := Nat.le_trans htop (Nat.min_le_right _ _)
  refine ⟨h.ascending, fun i hi => ?_, ⟨h.origin_le, htop⟩, fun comment => ?_,
    fun comment tag htag => ?_, fun target comment => ?_, fun target comment tag htag => ?_,
    fun r tag htag => ?_, fun r d hd => ?_, h.comments, ?_, ?_⟩
  · obtain ⟨hdevice, horigin, hbehind⟩ := h.behind i hi
    exact ⟨hdevice, h.name_of_mem hi, horigin, Nat.lt_of_lt_of_le hbehind htop⟩
  · have hnext := Allocator.serve_refused_iff (a := s.allocator) (r := .next comment)
    rw [Request.Open, h.top_eq, Nat.not_lt] at hnext
    exact hnext
  · obtain ⟨hname, haddress, -⟩ := Allocator.serve_of_ok (r := .next comment) htag
    exact ⟨hname.trans h.name_eq, haddress⟩
  · have hskip := Allocator.serve_refused_iff (a := s.allocator) (r := .skipTo target comment)
    rw [Request.Open, h.bound_eq] at hskip
    exact hskip
  · obtain ⟨hname, haddress, -⟩ := Allocator.serve_of_ok (r := .skipTo target comment) htag
    have htarget : tag.address = target := UInt32.toNat_inj.mp haddress
    rw [← htarget, ← h.name_eq, ← hname]
  · exact (Allocator.serve_of_ok htag).2.2
  · exact Allocator.serve_of_error hd
  · exact s.fresh.bound_lt
  · exact Nat.lt_of_le_of_lt (Nat.succ_le_succ hcursor) (by decide)

end Supply

end Rung
