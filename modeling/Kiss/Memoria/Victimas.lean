/-
# The victims of CLOCK-M

`seleccionar_pagina_victima_clock_M` on the tables of the module: the pages of the process
are reached through pointers, which point to different entries, and the searches only
change bits of use of these.

Key definitions: `claseDe`, `Pasadas`.
Key theorems: `paginasDe_legal`, `victima_clockM`.
-/
import Kiss.Memoria.Clases
import Kiss.Memoria.Corridas

namespace Kiss
namespace Memoria

open Reloj (pos clase limpias limpiarHasta Primero)

variable {c : ConfigMemoria} {s : MemoriaGlobal} {t : ℕ} {tt : TablaPrimerNivel}
  {asignadas : List RegistroAsignado} {l : List (List Pagina)}

/-- Pointers to different entries: clearing one page does not clear another. -/
theorem paginasDe_legal (h : (asignadas.map (·.paginaAsignada)).Nodup) : (paginasDe asignadas).Legal := by
  intro l i j
  simp only [paginasDe]
  rcases hi : asignadas[i]? with _ | r
  · simp only
    split_ifs with hj
    · rw [hj, hi]
      rfl
    · rfl
  rcases hj : asignadas[j]? with _ | r'
  · simp
  simp only [Option.bind_some, paginaEn_modificarPagina]
  by_cases hij : j = i
  · subst hij
    rw [hi] at hj
    cases hj
    rw [if_pos rfl, if_pos rfl, Option.map_map, Option.map_map]
    rfl
  · rw [if_neg hij, if_neg]
    intro he
    apply hij
    obtain ⟨hlt, -⟩ := List.getElem?_eq_some_iff.mp hj
    apply (List.getElem?_inj (by rwa [List.length_map]) h).mp
    rw [List.getElem?_map, List.getElem?_map, hi, hj, Option.map_some, Option.map_some, he]

/-- The page is one of the first `n` from the hand on. -/
def Pasadas (m : ℕ) (asignadas : List RegistroAsignado) (n i : ℕ) (q : ℕ × ℕ) : Prop :=
  ∃ k < n, asignadas[pos m i k]?.map (·.paginaAsignada) = some q

instance (m : ℕ) (asignadas : List RegistroAsignado) (n i : ℕ) (q : ℕ × ℕ) :
    Decidable (Pasadas m asignadas n i q) :=
  inferInstanceAs (Decidable (∃ k < n, _))

/-- What a turn that clears leaves of the entries. -/
theorem paginaEn_limpiarHasta {m : ℕ} (q : ℕ × ℕ) : ∀ (n : ℕ) {l : List (List Pagina)} {i : ℕ}, i < m →
    paginaEn (limpiarHasta (paginasDe asignadas) m n l i) q =
      if Pasadas m asignadas n i q then (paginaEn l q).map fun p => { p with uso := false }
      else paginaEn l q
  | 0, l, i, _ => by
    rw [if_neg]
    · rfl
    · rintro ⟨k, hk, -⟩
      exact Nat.not_lt_zero k hk
  | n + 1, l, i, hi => by
    have h1 : Pasadas m asignadas (n + 1) i q ↔ asignadas[i]?.map (·.paginaAsignada) = some q ∨
        Pasadas m asignadas n (Reloj.avanzar m i) q := by
      constructor
      · rintro ⟨k, hk, hr⟩
        cases k with
        | zero =>
          rw [Reloj.pos_zero hi] at hr
          exact Or.inl hr
        | succ k =>
          rw [Reloj.pos_succ hi] at hr
          exact Or.inr ⟨k, by omega, hr⟩
      · rintro (hr | ⟨k, hk, hr⟩)
        · exact ⟨0, by omega, by rw [Reloj.pos_zero hi]; exact hr⟩
        · exact ⟨k + 1, by omega, by rw [Reloj.pos_succ hi]; exact hr⟩
    have h2 : paginaEn ((paginasDe asignadas).limpiar l i) q =
        if asignadas[i]?.map (·.paginaAsignada) = some q then
          (paginaEn l q).map fun p => { p with uso := false } else paginaEn l q := by
      simp only [paginasDe]
      rcases hr : asignadas[i]? with _ | r
      · simp
      · rw [paginaEn_modificarPagina]
        by_cases hq : q = r.paginaAsignada
        · rw [if_pos hq, if_pos (by rw [hq]; rfl), hq]
        · rw [if_neg hq, if_neg]
          exact fun h => hq (Option.some.inj h).symm
    rw [limpiarHasta, paginaEn_limpiarHasta q n (Reloj.avanzar_lt hi), h2]
    by_cases h3 : asignadas[i]?.map (·.paginaAsignada) = some q
    · rw [if_pos (h1.mpr (Or.inl h3)), if_pos h3, Option.map_map]
      by_cases h4 : Pasadas m asignadas n (Reloj.avanzar m i) q
      · rw [if_pos h4]
        rfl
      · rw [if_neg h4]
    · rw [if_neg h3]
      by_cases h4 : Pasadas m asignadas n (Reloj.avanzar m i) q
      · rw [if_pos h4, if_pos (h1.mpr (Or.inr h4))]
      · rw [if_neg h4, if_neg (fun h => (h1.mp h).elim h3 h4)]

/-- The class of the page at a place of the list. -/
def claseDe (s : MemoriaGlobal) (tt : TablaPrimerNivel) (i : ℕ) : ℕ :=
  ((tt.paginasAsignadas[i]?.bind fun r => s.pagina r.paginaAsignada).map fun p =>
    clase (p.uso, p.modificado)).getD 4

/-- **The victim of CLOCK-M**, for a list of `m` pages: the first one of the best class from
the hand on. The hand stays at it, and the bits of use of the pages passed over are cleared:
of none, of those before it, or of all. -/
theorem victima_clockM (ht : s.tabla t = some tt) (hm : 1 ≤ c.marcosPorProceso)
    (hlen : tt.paginasAsignadas.length = c.marcosPorProceso)
    (hpunt : tt.punteroMarcos < c.marcosPorProceso)
    (hpag : ∀ r ∈ tt.paginasAsignadas, (s.pagina r.paginaAsignada).isSome)
    (hnd : (tt.paginasAsignadas.map (·.paginaAsignada)).Nodup) :
    ∃ k s', Primero c.marcosPorProceso (fun l => claseDe s tt (pos c.marcosPorProceso tt.punteroMarcos l)) k ∧
      seleccionarPaginaVictimaClockM c s t = some s' ∧
      s'.tabla = Function.update s.tabla t
        (some { tt with punteroMarcos := pos c.marcosPorProceso tt.punteroMarcos k }) ∧
      (∀ q, s'.pagina q = if Pasadas c.marcosPorProceso tt.paginasAsignadas
          (limpias c.marcosPorProceso k (claseDe s tt (pos c.marcosPorProceso tt.punteroMarcos k)))
          tt.punteroMarcos q then (s.pagina q).map fun p => { p with uso := false } else s.pagina q) ∧
      s'.registroEspacioUsuario = s.registroEspacioUsuario ∧ s'.espacioUsuario = s.espacioUsuario ∧
      s'.swap = s.swap := by
  have hP := paginasDe_legal hnd
  have hs : (paginasDe tt.paginasAsignadas).Lleno c.marcosPorProceso s.listaTablasDePaginas := by
    intro i hi
    have h1 : tt.paginasAsignadas[i]? = some tt.paginasAsignadas[i] := List.getElem?_eq_getElem (hlen ▸ hi)
    have h2 := hpag _ (List.mem_of_getElem? h1)
    simp only [paginasDe, h1, Option.bind_some, Option.isSome_map]
    exact h2
  have hcl : ∀ i, Reloj.claseEn (paginasDe tt.paginasAsignadas) s.listaTablasDePaginas i = claseDe s tt i := by
    intro i
    simp only [Reloj.claseEn, claseDe, paginasDe, MemoriaGlobal.pagina]
    rcases tt.paginasAsignadas[i]? with _ | r
    · rfl
    · simp only [Option.bind_some, Option.map_map]
      rfl
  obtain ⟨k, hk⟩ := Reloj.exists_primero (Nat.lt_of_lt_of_le Nat.zero_lt_one hm)
    fun l => claseDe s tt (pos c.marcosPorProceso tt.punteroMarcos l)
  have h1 := Reloj.clockM_eq (k := k) hP hs hpunt (by simpa only [hcl] using hk)
  rw [hcl] at h1
  refine ⟨k, (s.conPaginas (limpiarHasta (paginasDe tt.paginasAsignadas) c.marcosPorProceso
    (limpias c.marcosPorProceso k (claseDe s tt (pos c.marcosPorProceso tt.punteroMarcos k)))
    s.listaTablasDePaginas tt.punteroMarcos)).conTabla t fun tt' =>
      { tt' with punteroMarcos := pos c.marcosPorProceso tt.punteroMarcos k }, hk, ?_, ?_, ?_, rfl, rfl, rfl⟩
  · unfold seleccionarPaginaVictimaClockM
    simp only [ht, Option.bind_eq_bind, Option.bind_some, h1]
  · rw [tabla_conTabla]
    have h2 : ∀ l, (s.conPaginas l).tabla = s.tabla := fun _ => rfl
    rw [h2, ht, Option.map_some]
  · intro q
    rw [pagina_conTabla]
    exact paginaEn_limpiarHasta q _ hpunt

/-- Two pages in memory, modified and in use, and the hand on the second. -/
def dosPaginas : MemoriaGlobal := { sinProcesos with
  listaTablasDePaginas := [[⟨0, true, false, true⟩, ⟨1, false, true, true⟩]]
  listaTablasDeTablas := [⟨[0], [⟨0, (0, 0)⟩, ⟨1, (0, 1)⟩], 1, 0⟩] }

theorem victima_clockM_dosPaginas : ∃ k s',
    Primero 2 (fun l => claseDe dosPaginas ⟨[0], [⟨0, (0, 0)⟩, ⟨1, (0, 1)⟩], 1, 0⟩ (pos 2 1 l)) k ∧
      seleccionarPaginaVictimaClockM (chica 2 2) dosPaginas 0 = some s' := by
  have ht : dosPaginas.tabla 0 = some ⟨[0], [⟨0, (0, 0)⟩, ⟨1, (0, 1)⟩], 1, 0⟩ := rfl
  obtain ⟨k, s', h1, h2, -⟩ := victima_clockM (c := chica 2 2) ht (by decide +kernel) rfl
    (by decide +kernel) (by decide +kernel) (by decide +kernel)
  exact ⟨k, s', h1, h2⟩

end Memoria
end Kiss
