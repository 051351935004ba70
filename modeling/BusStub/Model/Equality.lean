import BusStub.Model

/-! Equality of interfaces can be decided, parents included. -/

namespace BusStub.Interface

mutual
def decEq : (a b : Interface) → Decidable (a = b)
  | ⟨name, methods, signals, properties, secure, parents⟩,
    ⟨name', methods', signals', properties', secure', parents'⟩ =>
    have := decEqAll parents parents'
    if h : name = name' ∧ methods = methods' ∧ signals = signals' ∧ properties = properties' ∧
        secure = secure' ∧ parents = parents' then
      isTrue (by obtain ⟨rfl, rfl, rfl, rfl, rfl, rfl⟩ := h; rfl)
    else isFalse (by intro same; injection same; simp_all)

def decEqAll : (as bs : List Interface) → Decidable (as = bs)
  | [], [] => isTrue rfl
  | [], _ :: _ => isFalse (by simp)
  | _ :: _, [] => isFalse (by simp)
  | a :: as, b :: bs =>
    match decEq a b, decEqAll as bs with
    | isTrue first, isTrue rest => isTrue (by rw [first, rest])
    | isFalse first, _ => isFalse (by intro same; injection same; contradiction)
    | _, isFalse rest => isFalse (by intro same; injection same; contradiction)
end

instance : DecidableEq Interface := decEq

end BusStub.Interface

deriving instance DecidableEq for BusStub.ObjectNode
