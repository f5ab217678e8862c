import DownloadQueue.Error

namespace DownloadQueue.Counter

def add64 (a b : UInt64) : Except Overflow UInt64 :=
  if a.toNat + b.toNat < UInt64.size then .ok (a + b) else .error .addition

def next64 (n : UInt64) : Except Overflow UInt64 :=
  add64 n 1

def next32 (n : UInt32) : Except Overflow UInt32 :=
  if n.toNat + 1 < UInt32.size then .ok (n + 1) else .error .addition

/-- A sum that is given is the one of the numbers. -/
theorem add64_eq_ok {a b sum : UInt64} (h : add64 a b = .ok sum) :
    sum = a + b ∧ sum.toNat = a.toNat + b.toNat := by
  rw [add64] at h
  split at h
  · next hlt =>
    cases h
    exact ⟨rfl, (UInt64.toNat_add a b).trans (Nat.mod_eq_of_lt hlt)⟩
  · cases h

theorem add64_eq_error {a b : UInt64} {overflow : Overflow} (h : add64 a b = .error overflow) :
    UInt64.size ≤ a.toNat + b.toNat ∧ overflow = .addition := by
  rw [add64] at h
  split at h
  · cases h
  · next hlarge =>
    cases h
    exact ⟨Nat.le_of_not_lt hlarge, rfl⟩

end DownloadQueue.Counter
