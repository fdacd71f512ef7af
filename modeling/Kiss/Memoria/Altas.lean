/-
# What a creation accepts

`iniciar_nuevo_proceso` should accept a process that its tables can address and answer
`-1` to any other, changing nothing. The limit wraps around in 32 bits, the size of the
file is signed, the file is named after the process alone, and the failure value is used
as the number of a table: the creation does what it should exactly when none of these
comes up (`iniciar_bien_iff`), and never for a process that is too big.

Key definitions: `AltaBien`, `Cabe`.
Key theorems: `iniciar_bien_iff`, `not_altaBien`.
-/
import Kiss.Memoria.Corridas

namespace Kiss
namespace Memoria

variable {c : ConfigMemoria} {s s' : MemoriaGlobal} {tam pid n : ℕ} {fin : List ℕ}

/-- The pages of a process of `tam` bytes. -/
def paginasDeTamano (c : ConfigMemoria) (tam : ℕ) : ℕ := (tam + c.tamPagina - 1) / c.tamPagina

/-- `s'` is `s` with a new process at the end, and the processes that there are untouched. -/
structure Alta (c : ConfigMemoria) (s : MemoriaGlobal) (fin : List ℕ) (tam pid : ℕ)
    (s' : MemoriaGlobal) : Prop where
  tablas : ∃ l, s'.listaTablasDeTablas =
    s.listaTablasDeTablas ++ [{ tablasSegundoNivel := l, pcbId := pid }]
  paginas : ∃ ls, s'.listaTablasDePaginas = s.listaTablasDePaginas ++ ls
  registro : s'.registroEspacioUsuario = s.registroEspacioUsuario
  espacio : s'.espacioUsuario = s.espacioUsuario
  archivo : s'.swap pid = some ⟨paginasDeTamano c tam * c.tamPagina, fun _ => 0⟩
  archivos : ∀ u, u ≠ pid → s'.swap u = s.swap u
  ajenas : ∀ t < s.listaTablasDeTablas.length, t ∉ fin → vista c s' t = vista c s t

/-- What `iniciar_nuevo_proceso` has to answer. -/
def AltaBien (c : ConfigMemoria) (s : MemoriaGlobal) (fin : List ℕ) (tam pid : ℕ)
    (r : Option (ℕ × MemoriaGlobal)) : Prop :=
  if tam ≤ c.tamPagina * c.entradasPorTabla * c.entradasPorTabla then
    ∃ s', r = some (s.listaTablasDeTablas.length, s') ∧ Alta c s fin tam pid s'
  else r = some (u32Max, s)

/-- The process fits in the limit after it wraps around, its file has a size, and no other
process has that file, unless it would not notice. -/
structure Cabe (c : ConfigMemoria) (s : MemoriaGlobal) (fin : List ℕ) (tam pid : ℕ) : Prop where
  limite : tam ≤ c.tamPagina * c.entradasPorTabla * c.entradasPorTabla % 2 ^ 32
  archivo : paginasDeTamano c tam * c.tamPagina < 2 ^ 31
  propio : ∀ t tt, t ∉ fin → s.tabla t = some tt → tt.pcbId = pid →
    s.swap pid = some ⟨paginasDeTamano c tam * c.tamPagina, fun _ => 0⟩

theorem le_paginasDeTamano (c : ConfigMemoria) (tam : ℕ) : tam ≤ paginasDeTamano c tam * c.tamPagina := by
  have h0 := c.tamPagina_pos
  have h1 := Nat.div_add_mod (tam + c.tamPagina - 1) c.tamPagina
  have h2 := Nat.mod_lt (tam + c.tamPagina - 1) h0
  rw [Nat.mul_comm] at h1
  unfold paginasDeTamano
  omega

/-- The counts of a process whose file has a size are in range. -/
theorem exists_ceilFloat (htam : tam < 2 ^ 31) (he : 0 < c.entradasPorTabla) :
    ∃ paginas tablas, ceilFloat tam c.tamPagina = some paginas ∧
      ceilFloat paginas c.entradasPorTabla = some tablas := by
  have h1 := Flotante.ceilDiv_le (p := 24) (a := tam) (by omega) c.tamPagina_pos
  have h2 := Flotante.ceilDiv_le (p := 24) (a := Flotante.ceilDiv 24 tam c.tamPagina) (by omega) he
  exact ⟨_, _, if_pos ⟨c.tamPagina_pos, by omega⟩, if_pos ⟨he, by omega⟩⟩

/-- The file of a process below `2 ^ 32`. -/
theorem archivoNuevo_eq (htam : tam < 2 ^ 32) : archivoNuevo c tam =
    if paginasDeTamano c tam < 2 ^ 31 then
      some ⟨(toInt (paginasDeTamano c tam * c.tamPagina : ℕ)).toNat, fun _ => 0⟩
    else none := by
  have h1 := c.tamPagina_lt
  unfold archivoNuevo
  rw [Flotante.ceilDiv_eq (by omega) (by omega) c.tamPagina_pos]
  rfl

theorem corrida_numerable (h : Corrida c s fin) : Numerable s := by
  induction h with
  | inicio h => exact ⟨by rw [h.tablas]; norm_num, by rw [h.paginas]; norm_num⟩
  | paso o n h ho hs hn ih => exact hn

/-- A process that fits. -/
theorem iniciar_de_cabe (h : Corrida c s fin) (htam : 1 ≤ tam) (hc : Cabe c s fin tam pid) :
    AltaBien c s fin tam pid (iniciarNuevoProceso c s tam pid) := by
  obtain ⟨hlim, harch, hpropio⟩ := hc
  have hnum := corrida_numerable h
  have hle := le_paginasDeTamano c tam
  have he : 0 < c.entradasPorTabla := Nat.pos_of_ne_zero fun he => by
    rw [he, Nat.mul_zero] at hlim
    omega
  obtain ⟨paginas, tablas, h1, h2⟩ := exists_ceilFloat (c := c) (show tam < 2 ^ 31 by omega) he
  have hpag : paginasDeTamano c tam < 2 ^ 31 :=
    lt_of_le_of_lt (Nat.le_mul_of_pos_right _ c.tamPagina_pos) harch
  unfold AltaBien
  rw [if_pos (hlim.trans (Nat.mod_le _ _)), iniciar_cabe (not_lt.mpr hlim) h1 h2 hnum.tablas,
    archivoNuevo_eq (by omega), if_pos hpag, toInt_of_lt harch, Int.toNat_natCast, Option.map_some]
  refine ⟨_, rfl, ⟨_, rfl⟩, ⟨_, rfl⟩, rfl, rfl, Function.update_self .., fun u hu =>
    Function.update_of_ne hu .., fun t ht hfin => ?_⟩
  refine vista_prefijo (corrida_invariante h).marcos (List.getElem?_append_left ht) rfl rfl fun tu htu => ?_
  by_cases hp : tu.pcbId = pid
  · rw [hp, hpropio t tu hfin htu hp]
    exact Function.update_self ..
  · exact Function.update_of_ne hp ..

/-- **What a creation accepts.** In every state that a run reaches. -/
theorem iniciar_bien_iff (h : Corrida c s fin) (htam : 1 ≤ tam) :
    AltaBien c s fin tam pid (iniciarNuevoProceso c s tam pid) ↔ Cabe c s fin tam pid := by
  refine ⟨fun hb => ?_, iniciar_de_cabe h htam⟩
  have hnum := corrida_numerable h
  -- past the limit there is no answer
  have hlim : tam ≤ c.tamPagina * c.entradasPorTabla * c.entradasPorTabla % 2 ^ 32 := by
    by_contra hg
    rw [iniciar_grande hnum.tablas (not_le.mp hg)] at hb
    unfold AltaBien at hb
    split_ifs at hb
    obtain ⟨s', hs, -⟩ := hb
    cases hs
  have h32 : tam < 2 ^ 32 := hlim.trans_lt (Nat.mod_lt _ (by norm_num))
  unfold AltaBien at hb
  rw [if_pos (hlim.trans (Nat.mod_le _ _))] at hb
  obtain ⟨s', hs, hA⟩ := hb
  -- the file that the creation leaves
  obtain ⟨⟨m, s1⟩, h1, hs⟩ := Option.bind_eq_some_iff.mp hs
  obtain ⟨s2, h2, hs⟩ := Option.bind_eq_some_iff.mp hs
  obtain ⟨rfl, rfl⟩ := Prod.mk.inj (Option.some.inj hs)
  obtain ⟨l, hl⟩ := hA.tablas
  have htab : s1.tabla s.listaTablasDeTablas.length = some { tablasSegundoNivel := l, pcbId := pid } := by
    rw [MemoriaGlobal.tabla, ← (crearArchivoSwap_listas h2).1, hl, List.getElem?_concat_length]
  rw [crearArchivoSwap_eq htab, archivoNuevo_eq h32] at h2
  by_cases hpag : paginasDeTamano c tam < 2 ^ 31
  swap
  · rw [if_neg hpag] at h2
    cases h2
  rw [if_pos hpag] at h2
  have harch := hA.archivo
  rw [← Option.some.inj h2, swap_conSwap, Function.update_self, Option.some.injEq, Archivo.mk.injEq] at harch
  have hle := le_paginasDeTamano c tam
  have h31 : paginasDeTamano c tam * c.tamPagina < 2 ^ 31 := by
    have h3 : toInt (paginasDeTamano c tam * c.tamPagina : ℕ) < 2 ^ 31 := by
      unfold toInt
      exact Int.bmod_lt (by norm_num)
    have h4 := harch.1
    omega
  refine ⟨hlim, h31, fun t tt hfin ht hp => ?_⟩
  have hlt : t < s.listaTablasDeTablas.length := (List.getElem?_eq_some_iff.mp ht).1
  have h5 := hA.ajenas t hlt hfin
  unfold vista MemoriaGlobal.tabla at h5
  rw [hl, List.getElem?_append_left hlt, show s.listaTablasDeTablas[t]? = some tt from ht, Option.map_some,
    Option.map_some, Option.some.injEq] at h5
  have h6 := congrArg Proceso.archivo h5
  rw [vistaDe, vistaDe, hp, hA.archivo] at h6
  exact h6.symm

theorem iniciar_bien_tresPaginas :
    AltaBien (chica 2 2) sinProcesos [] 12 0 (iniciarNuevoProceso (chica 2 2) sinProcesos 12 0) :=
  (iniciar_bien_iff (.inicio ⟨rfl, rfl, fun _ _ => rfl⟩) (by norm_num)).mpr
    ⟨by decide +kernel, by decide +kernel, fun _ _ _ ht _ => by cases ht⟩

/-- Four pages are the most that two tables of two entries have; a process of one byte more
has no answer. -/
theorem not_altaBien : ¬ ∀ (c : ConfigMemoria) (s : MemoriaGlobal) (fin : List ℕ) (tam pid : ℕ),
    Corrida c s fin → 1 ≤ tam → AltaBien c s fin tam pid (iniciarNuevoProceso c s tam pid) := by
  intro h
  have h1 := h (chica 2 2) sinProcesos [] 17 0 (.inicio ⟨rfl, rfl, fun _ _ => rfl⟩) (by norm_num)
  rw [iniciar_grande (by decide +kernel) (by decide +kernel)] at h1
  unfold AltaBien at h1
  rw [if_neg (by decide +kernel)] at h1
  cases h1

end Memoria
end Kiss
