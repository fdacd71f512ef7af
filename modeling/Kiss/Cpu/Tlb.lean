/-
# The TLB

`cpu/src/tlb.c`. The list is in the order of replacement: both policies take the
first entry out, and under LRU a hit moves its entry to the end.

Key definitions: `Tlb`, `limpiarTlb`, `reemplazarEntrada`, `buscarMarco`.
-/
import Kiss.Structs

namespace Kiss
namespace Cpu

/-- `t_alg_reemplazo`. -/
inductive AlgReemplazo
  | fifo | lru
  deriving DecidableEq, Repr

/-- `t_entry_tlb`. -/
structure EntryTlb where
  pagina : ℤ
  marco : ℤ
  deriving DecidableEq, Repr

/-- `t_tlb`, with room for an entry at least. -/
structure Tlb where
  listaTlb : List EntryTlb := []
  cantEntradas : ℤ
  protocolo : AlgReemplazo
  pos : 0 < cantEntradas

/-- `limpiar_tlb`. -/
def limpiarTlb (t : Tlb) : Tlb := { t with listaTlb := [] }

/-- `reemplazar_entrada`. -/
def reemplazarEntrada (t : Tlb) (entrada : EntryTlb) : Tlb :=
  if t.listaTlb.length < t.cantEntradas then { t with listaTlb := t.listaTlb ++ [entrada] }
  else match t.protocolo with
    | .fifo => { t with listaTlb := t.listaTlb.tail ++ [entrada] }
    | .lru => { t with listaTlb := t.listaTlb.tail ++ [entrada] }

/-- `buscar_marco`: the frame of the first entry of the page, or -1. -/
def buscarMarco (t : Tlb) (pagina : ℤ) : ℤ × Tlb :=
  match t.listaTlb.find? (·.pagina = pagina) with
  | none => (-1, t)
  | some e =>
    if e.marco ≠ -1 ∧ t.protocolo = .lru then
      (e.marco, { t with listaTlb := t.listaTlb.eraseP (·.pagina = pagina) ++ [e] })
    else (e.marco, t)

theorem mem_limpiarTlb (t : Tlb) (e : EntryTlb) : e ∉ (limpiarTlb t).listaTlb := by
  simp [limpiarTlb]

/-- A replacement keeps entries and adds the new one. -/
theorem mem_reemplazarEntrada {t : Tlb} {entrada e : EntryTlb}
    (h : e ∈ (reemplazarEntrada t entrada).listaTlb) : e ∈ t.listaTlb ∨ e = entrada := by
  unfold reemplazarEntrada at h
  split at h
  · simpa using h
  · split at h <;>
    · rcases List.mem_append.mp h with h | h
      · exact Or.inl (List.mem_of_mem_tail h)
      · exact Or.inr (List.mem_singleton.mp h)

/-- A search only moves entries. -/
theorem mem_buscarMarco {t : Tlb} {pagina : ℤ} {e : EntryTlb}
    (h : e ∈ (buscarMarco t pagina).2.listaTlb) : e ∈ t.listaTlb := by
  unfold buscarMarco at h
  split at h
  · exact h
  · rename_i e' he
    split at h
    · rcases List.mem_append.mp h with h | h
      · exact List.mem_of_mem_eraseP h
      · rw [List.mem_singleton.mp h]
        exact List.mem_of_find?_eq_some he
    · exact h

/-- A frame the search finds is in an entry of the page. -/
theorem mem_of_buscarMarco {t : Tlb} {pagina marco : ℤ} (h : (buscarMarco t pagina).1 = marco)
    (hm : marco ≠ -1) : ⟨pagina, marco⟩ ∈ t.listaTlb := by
  unfold buscarMarco at h
  split at h
  · exact absurd h.symm hm
  · rename_i e he
    have hp : e.pagina = pagina := by simpa using List.find?_some he
    have h1 : e = ⟨pagina, marco⟩ := by
      rw [← hp, ← h]
      split <;> rfl
    rw [← h1]
    exact List.mem_of_find?_eq_some he

end Cpu
end Kiss
