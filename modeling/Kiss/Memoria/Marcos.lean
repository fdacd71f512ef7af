/-
# Who has each frame

The same fact is in four places: the entry of a page, the list of pages assigned to the
process, the registry of frames and its free map. `Marcos` says how they agree, for the
processes that have not been finished, and each of the few changes the module makes to
them keeps it: bits of a page that is present, the hand, a page put in the place of
another, a page put in a free frame, the first page taken out.

Key definitions: `dir`, `Marcos`.
Key theorems: `Marcos.bits`, `Marcos.cambiar`, `Marcos.asignar`, `Marcos.quitar`.
-/
import Kiss.Memoria.Tablas

namespace Kiss
namespace Memoria

open Reloj (avanzar)

variable {c : ConfigMemoria} {s s' : MemoriaGlobal} {t p : ℕ} {q : ℕ × ℕ}

/-! ### Reading an updated state -/

section Lecturas

theorem paginaEn_modificarPagina (l : List (List Pagina)) (q q' : ℕ × ℕ) (f : Pagina → Pagina) :
    paginaEn (modificarPagina l q f) q' = if q' = q then (paginaEn l q).map f else paginaEn l q' := by
  obtain ⟨i, j⟩ := q
  obtain ⟨i', j'⟩ := q'
  unfold paginaEn modificarPagina
  by_cases hi : i = i'
  · subst hi
    by_cases hj : j = j'
    · subst hj
      rcases h : l[i]? with _ | t
      · simp [h]
      · simp [h]
    · rcases h : l[i]? with _ | t
      · simp [h]
      · simp [h, hj, Ne.symm hj]
  · simp [hi, Ne.symm hi]

/-- How many entries a second-level table has. -/
def MemoriaGlobal.largo (s : MemoriaGlobal) (n : ℕ) : Option ℕ := s.listaTablasDePaginas[n]?.map List.length

theorem isSome_largo {n : ℕ} : (s.largo n).isSome ↔ n < s.listaTablasDePaginas.length := by
  rw [MemoriaGlobal.largo, Option.isSome_map]
  simp

variable (s)

@[simp] theorem pagina_conPagina (f : Pagina → Pagina) :
    (s.conPagina q f).pagina = Function.update s.pagina q ((s.pagina q).map f) := by
  funext q'
  rw [Function.update_apply]
  exact paginaEn_modificarPagina _ _ _ _

@[simp] theorem tabla_conPagina (f : Pagina → Pagina) : (s.conPagina q f).tabla = s.tabla := rfl

@[simp] theorem largo_conPagina (f : Pagina → Pagina) : (s.conPagina q f).largo = s.largo := by
  funext n
  simp only [MemoriaGlobal.largo, MemoriaGlobal.conPagina, modificarPagina, List.getElem?_modify]
  rcases s.listaTablasDePaginas[n]? with _ | l
  · rfl
  · by_cases h : q.1 = n
    · simp [h]
    · simp [h]

@[simp] theorem registro_conPagina (f : Pagina → Pagina) :
    (s.conPagina q f).registroEspacioUsuario = s.registroEspacioUsuario := rfl

@[simp] theorem espacio_conPagina (f : Pagina → Pagina) :
    (s.conPagina q f).espacioUsuario = s.espacioUsuario := rfl

@[simp] theorem swap_conPagina (f : Pagina → Pagina) : (s.conPagina q f).swap = s.swap := rfl

@[simp] theorem tabla_conTabla (f : TablaPrimerNivel → TablaPrimerNivel) :
    (s.conTabla t f).tabla = Function.update s.tabla t ((s.tabla t).map f) := by
  funext t'
  rw [Function.update_apply]
  simp only [MemoriaGlobal.tabla, MemoriaGlobal.conTabla, List.getElem?_modify]
  by_cases h : t = t'
  · subst h
    simp
  · simp [h, Ne.symm h]

@[simp] theorem pagina_conTabla (f : TablaPrimerNivel → TablaPrimerNivel) :
    (s.conTabla t f).pagina = s.pagina := rfl

@[simp] theorem largo_conTabla (f : TablaPrimerNivel → TablaPrimerNivel) :
    (s.conTabla t f).largo = s.largo := rfl

@[simp] theorem registro_conTabla (f : TablaPrimerNivel → TablaPrimerNivel) :
    (s.conTabla t f).registroEspacioUsuario = s.registroEspacioUsuario := rfl

@[simp] theorem espacio_conTabla (f : TablaPrimerNivel → TablaPrimerNivel) :
    (s.conTabla t f).espacioUsuario = s.espacioUsuario := rfl

@[simp] theorem swap_conTabla (f : TablaPrimerNivel → TablaPrimerNivel) :
    (s.conTabla t f).swap = s.swap := rfl

@[simp] theorem tabla_conEspacio (m : ℕ → UInt8) : (s.conEspacio m).tabla = s.tabla := rfl

@[simp] theorem pagina_conEspacio (m : ℕ → UInt8) : (s.conEspacio m).pagina = s.pagina := rfl

@[simp] theorem largo_conEspacio (m : ℕ → UInt8) : (s.conEspacio m).largo = s.largo := rfl

@[simp] theorem registro_conEspacio (m : ℕ → UInt8) :
    (s.conEspacio m).registroEspacioUsuario = s.registroEspacioUsuario := rfl

@[simp] theorem espacio_conEspacio (m : ℕ → UInt8) : (s.conEspacio m).espacioUsuario = m := rfl

@[simp] theorem swap_conEspacio (m : ℕ → UInt8) : (s.conEspacio m).swap = s.swap := rfl

@[simp] theorem tabla_conSwap (a : Option Archivo) : (s.conSwap p a).tabla = s.tabla := rfl

@[simp] theorem pagina_conSwap (a : Option Archivo) : (s.conSwap p a).pagina = s.pagina := rfl

@[simp] theorem largo_conSwap (a : Option Archivo) : (s.conSwap p a).largo = s.largo := rfl

@[simp] theorem registro_conSwap (a : Option Archivo) :
    (s.conSwap p a).registroEspacioUsuario = s.registroEspacioUsuario := rfl

@[simp] theorem espacio_conSwap (a : Option Archivo) :
    (s.conSwap p a).espacioUsuario = s.espacioUsuario := rfl

@[simp] theorem swap_conSwap (a : Option Archivo) :
    (s.conSwap p a).swap = Function.update s.swap p a := rfl

@[simp] theorem tabla_conRegistro (f : RegistroEU → RegistroEU) : (s.conRegistro p f).tabla = s.tabla := rfl

@[simp] theorem pagina_conRegistro (f : RegistroEU → RegistroEU) :
    (s.conRegistro p f).pagina = s.pagina := rfl

@[simp] theorem largo_conRegistro (f : RegistroEU → RegistroEU) : (s.conRegistro p f).largo = s.largo := rfl

@[simp] theorem registro_conRegistro (f : RegistroEU → RegistroEU) :
    (s.conRegistro p f).registroEspacioUsuario =
      Function.update s.registroEspacioUsuario p (f (s.registroEspacioUsuario p)) := rfl

@[simp] theorem espacio_conRegistro (f : RegistroEU → RegistroEU) :
    (s.conRegistro p f).espacioUsuario = s.espacioUsuario := rfl

@[simp] theorem swap_conRegistro (f : RegistroEU → RegistroEU) : (s.conRegistro p f).swap = s.swap := rfl

end Lecturas

/-! ### Where the entry of a page is -/

/-- The pointer to the entry of page `p` of the process of table `t`. -/
def dir (c : ConfigMemoria) (s : MemoriaGlobal) (t p : ℕ) : Option (ℕ × ℕ) :=
  (s.tabla t).bind fun tt => tt.tablasSegundoNivel[numeroDeTabla c p]?.bind fun n =>
    (s.largo n).bind fun k => if numeroDePagina c p < k then some (n, numeroDePagina c p) else none

theorem join_buscarPaginaEnTablas : (buscarPaginaEnTablas c s t p).join = dir c s t p := by
  unfold buscarPaginaEnTablas dir MemoriaGlobal.largo
  rcases s.tabla t with _ | tt
  · rfl
  rcases h : tt.tablasSegundoNivel[numeroDeTabla c p]? with _ | n
  · simp [h]
  rcases h' : s.listaTablasDePaginas[n]? with _ | l
  · simp [h, h']
  by_cases hl : numeroDePagina c p < l.length
  · simp [h, h', hl]
  · simp [h, h', hl]

/-- The entries of a process are where they were. -/
theorem dir_congr (h1 : (s'.tabla t).map (·.tablasSegundoNivel) = (s.tabla t).map (·.tablasSegundoNivel))
    (h2 : s'.largo = s.largo) : dir c s' t = dir c s t := by
  have h : ∀ s : MemoriaGlobal, dir c s t = fun p => ((s.tabla t).map (·.tablasSegundoNivel)).bind fun l =>
      l[numeroDeTabla c p]?.bind fun n => (s.largo n).bind fun k =>
        if numeroDePagina c p < k then some (n, numeroDePagina c p) else none := by
    intro s
    funext p
    unfold dir
    rw [Option.bind_map]
    rfl
  rw [h s', h s, h1, h2]

/-! ### The agreement -/

/-- How the places agree; the processes of the tables in `fin` are finished. -/
structure Marcos (c : ConfigMemoria) (s : MemoriaGlobal) (fin : List ℕ) : Prop where
  unicas : ∀ {t tt t' tt'} {i i' n : ℕ}, s.tabla t = some tt → tt.tablasSegundoNivel[i]? = some n →
    s.tabla t' = some tt' → tt'.tablasSegundoNivel[i']? = some n → t = t' ∧ i = i'
  creadas : ∀ {t tt n}, s.tabla t = some tt → n ∈ tt.tablasSegundoNivel → (s.largo n).isSome
  asignada : ∀ {t tt r}, s.tabla t = some tt → r ∈ tt.paginasAsignadas →
    dir c s t r.numeroPagina = some r.paginaAsignada ∧
      ∃ v, s.pagina r.paginaAsignada = some v ∧ v.presencia = true ∧ v.numeroMarco < c.cantidad ∧
        s.registroEspacioUsuario v.numeroMarco = ⟨true, t, r.numeroPagina⟩
  nodup : ∀ {t tt}, s.tabla t = some tt → (tt.paginasAsignadas.map (·.numeroPagina)).Nodup
  presente : ∀ {t tt p q v}, t ∉ fin → s.tabla t = some tt → dir c s t p = some q →
    s.pagina q = some v → v.presencia = true → ⟨p, q⟩ ∈ tt.paginasAsignadas
  ausente : ∀ {t p q v}, dir c s t p = some q → s.pagina q = some v →
    v.presencia = false → v.uso = false ∧ v.modificado = false
  ocupado : ∀ f < c.cantidad, (s.registroEspacioUsuario f).asignado = true →
    ∃ t tt r v, s.tabla t = some tt ∧ r ∈ tt.paginasAsignadas ∧
      s.pagina r.paginaAsignada = some v ∧ v.numeroMarco = f
  rango : ∀ {q v}, s.pagina q = some v → v.presencia = true → v.numeroMarco < c.cantidad

/-- A list without repetitions, less the value at one place. -/
theorem mem_eraseIdx_of_nodup {α : Type*} {l : List α} {i : ℕ} {a b : α} (hn : l.Nodup) (hi : l[i]? = some a) :
    b ∈ l.eraseIdx i ↔ b ∈ l ∧ b ≠ a := by
  rw [List.mem_eraseIdx_iff_getElem?]
  constructor
  · rintro ⟨j, hj, hj'⟩
    refine ⟨List.mem_of_getElem? hj', ?_⟩
    rintro rfl
    exact hj ((List.getElem?_inj (List.getElem?_eq_some_iff.mp hj').1 hn).mp (hj'.trans hi.symm))
  · rintro ⟨hmem, hne⟩
    obtain ⟨j, hj⟩ := List.mem_iff_getElem?.mp hmem
    refine ⟨j, ?_, hj⟩
    rintro rfl
    rw [hi] at hj
    exact hne (Option.some.inj hj).symm

/-- A list with another value at one place. -/
theorem mem_set_iff_eraseIdx {α : Type*} {l : List α} {i : ℕ} {a b : α} (hi : i < l.length) :
    b ∈ l.set i a ↔ b ∈ l.eraseIdx i ∨ b = a := by
  rw [List.set_eq_take_append_cons_drop, if_pos hi, List.eraseIdx_eq_take_drop_succ]
  simp only [List.mem_append, List.mem_cons]
  tauto

namespace Marcos

variable {fin : List ℕ} {t' p' : ℕ} {q' : ℕ × ℕ} {tt tt' : TablaPrimerNivel} {r r' : RegistroAsignado}
  {v v' : Pagina}

/-- Two pages have two entries. -/
theorem distintas (h : Marcos c s fin) (h1 : dir c s t p = some q) (h2 : dir c s t' p' = some q) :
    t = t' ∧ p = p' := by
  unfold dir at h1 h2
  obtain ⟨tt, ht, h1⟩ := Option.bind_eq_some_iff.mp h1
  obtain ⟨tt', ht', h2⟩ := Option.bind_eq_some_iff.mp h2
  obtain ⟨n, hn, h1⟩ := Option.bind_eq_some_iff.mp h1
  obtain ⟨n', hn', h2⟩ := Option.bind_eq_some_iff.mp h2
  obtain ⟨k, -, h1⟩ := Option.bind_eq_some_iff.mp h1
  obtain ⟨k', -, h2⟩ := Option.bind_eq_some_iff.mp h2
  split_ifs at h1 h2
  simp only [Option.some.injEq] at h1 h2
  rw [← h1, Prod.mk.injEq] at h2
  obtain ⟨rfl, hp⟩ := h2
  obtain ⟨rfl, hd⟩ := h.unicas ht hn ht' hn'
  unfold numeroDeTabla at hd
  unfold numeroDePagina at hp
  refine ⟨rfl, ?_⟩
  rw [← Nat.div_add_mod p c.entradasPorTabla, hd, ← hp, Nat.div_add_mod]

/-- An entry that a table assigns is its own. -/
theorem mismo (h : Marcos c s fin) (ht : s.tabla t = some tt) (hr : r ∈ tt.paginasAsignadas)
    (ht' : s.tabla t' = some tt') (hr' : r' ∈ tt'.paginasAsignadas)
    (hq : r.paginaAsignada = r'.paginaAsignada) : t = t' ∧ r = r' := by
  obtain ⟨rfl, hp⟩ := h.distintas (h.asignada ht hr).1 (hq ▸ (h.asignada ht' hr').1)
  refine ⟨rfl, ?_⟩
  cases r
  cases r'
  simp_all

/-- A frame is held by one entry. -/
theorem exclusivo (h : Marcos c s fin) (ht : s.tabla t = some tt) (hr : r ∈ tt.paginasAsignadas)
    (hv : s.pagina r.paginaAsignada = some v) (ht' : s.tabla t' = some tt')
    (hr' : r' ∈ tt'.paginasAsignadas) (hv' : s.pagina r'.paginaAsignada = some v')
    (hf : v.numeroMarco = v'.numeroMarco) : t = t' ∧ r = r' := by
  obtain ⟨hd, w, hw, -, -, hg⟩ := h.asignada ht hr
  obtain ⟨hd', w', hw', -, -, hg'⟩ := h.asignada ht' hr'
  rw [hv] at hw
  cases hw
  rw [hv'] at hw'
  cases hw'
  rw [hf, hg'] at hg
  obtain ⟨rfl, hn⟩ : t' = t ∧ r'.numeroPagina = r.numeroPagina := by simpa using hg
  rw [hn, hd, Option.some.injEq] at hd'
  exact h.mismo ht hr ht' hr' hd'

/-- A finished process says less. -/
theorem finalizada (h : Marcos c s fin) (t : ℕ) : Marcos c s (t :: fin) where
  unicas := h.unicas
  creadas := h.creadas
  asignada := h.asignada
  nodup := h.nodup
  presente hf := h.presente (List.not_mem_of_not_mem_cons hf)
  ausente := h.ausente
  ocupado := h.ocupado
  rango := h.rango

/-- The agreement is about the tables, the pages and the registry. -/
theorem congr (h : Marcos c s fin) (h1 : s'.tabla = s.tabla) (h2 : s'.largo = s.largo)
    (h3 : s'.pagina = s.pagina) (h4 : s'.registroEspacioUsuario = s.registroEspacioUsuario) :
    Marcos c s' fin := by
  have hd : ∀ t, dir c s' t = dir c s t := fun t => dir_congr (by rw [h1]) h2
  constructor
  all_goals simp only [h1, h2, h3, h4, hd]
  · exact h.unicas
  · exact h.creadas
  · exact h.asignada
  · exact h.nodup
  · exact h.presente
  · exact h.ausente
  · exact h.ocupado
  · exact h.rango

/-! ### Changes to one process -/

/-- What is in a table after one was updated. -/
theorem tabla_update (h1 : s'.tabla = Function.update s.tabla t (some tt'))
    {u : ℕ} {tu : TablaPrimerNivel} (hu : s'.tabla u = some tu) :
    u = t ∧ tu = tt' ∨ u ≠ t ∧ s.tabla u = some tu := by
  rw [h1, Function.update_apply] at hu
  split_ifs at hu with h
  · exact Or.inl ⟨h, (Option.some.inj hu).symm⟩
  · exact Or.inr ⟨h, hu⟩

/-- The second-level tables stay. -/
theorem dir_update (ht : s.tabla t = some tt) (h1 : s'.tabla = Function.update s.tabla t (some tt'))
    (htt : tt'.tablasSegundoNivel = tt.tablasSegundoNivel) (h2 : s'.largo = s.largo) (u : ℕ) :
    dir c s' u = dir c s u := by
  apply dir_congr _ h2
  rw [h1, Function.update_apply]
  split_ifs with h
  · rw [h, ht, Option.map_some, Option.map_some, htt]
  · rfl

theorem unicas_update (h : Marcos c s fin) (ht : s.tabla t = some tt)
    (h1 : s'.tabla = Function.update s.tabla t (some tt'))
    (htt : tt'.tablasSegundoNivel = tt.tablasSegundoNivel) {u u' : ℕ} {tu tu' : TablaPrimerNivel}
    {i i' n : ℕ} (hu : s'.tabla u = some tu) (hn : tu.tablasSegundoNivel[i]? = some n)
    (hu' : s'.tabla u' = some tu') (hn' : tu'.tablasSegundoNivel[i']? = some n) : u = u' ∧ i = i' := by
  rcases tabla_update h1 hu with ⟨rfl, rfl⟩ | ⟨-, hu⟩ <;>
    rcases tabla_update h1 hu' with ⟨rfl, rfl⟩ | ⟨-, hu'⟩
  · exact h.unicas ht (htt ▸ hn) ht (htt ▸ hn')
  · exact h.unicas ht (htt ▸ hn) hu' hn'
  · exact h.unicas hu hn ht (htt ▸ hn')
  · exact h.unicas hu hn hu' hn'

theorem creadas_update (h : Marcos c s fin) (ht : s.tabla t = some tt)
    (h1 : s'.tabla = Function.update s.tabla t (some tt')) (h2 : s'.largo = s.largo)
    (htt : tt'.tablasSegundoNivel = tt.tablasSegundoNivel) {u n : ℕ} {tu : TablaPrimerNivel}
    (hu : s'.tabla u = some tu) (hn : n ∈ tu.tablasSegundoNivel) : (s'.largo n).isSome := by
  rw [h2]
  rcases tabla_update h1 hu with ⟨rfl, rfl⟩ | ⟨-, hu⟩
  · exact h.creadas ht (htt ▸ hn)
  · exact h.creadas hu hn

/-- The bits of a page that is present. -/
theorem bits (h : Marcos c s fin) (v' : Pagina) (hv : s.pagina q = some v) (hp : v.presencia = true)
    (hv' : v'.presencia = true) (hm : v'.numeroMarco = v.numeroMarco) (h1 : s'.tabla = s.tabla)
    (h2 : s'.largo = s.largo) (h3 : s'.pagina = Function.update s.pagina q (some v'))
    (h4 : s'.registroEspacioUsuario = s.registroEspacioUsuario) : Marcos c s' fin := by
  have hd : ∀ t, dir c s' t = dir c s t := fun t => dir_congr (by rw [h1]) h2
  have h3' : ∀ q', s'.pagina q' = if q' = q then some v' else s.pagina q' := fun q' => by
    rw [h3, Function.update_apply]
  constructor
  any_goals simp only [h1, h2, h4, hd]
  · exact h.unicas
  · exact h.creadas
  · intro t tt r ht hr
    obtain ⟨ha, w, hw, hb⟩ := h.asignada ht hr
    refine ⟨ha, ?_⟩
    by_cases hq : r.paginaAsignada = q
    · rw [h3', if_pos hq]
      rw [hq, hv] at hw
      cases hw
      exact ⟨v', rfl, hv', hm ▸ hb.2⟩
    · rw [h3', if_neg hq]
      exact ⟨w, hw, hb⟩
  · exact h.nodup
  · intro t tt p q' w hf ht hq' hw hp'
    rw [h3'] at hw
    split_ifs at hw with hq
    · rw [hq] at hq' ⊢
      exact h.presente hf ht hq' hv hp
    · exact h.presente hf ht hq' hw hp'
  · intro t p q' w hq' hw hp'
    rw [h3'] at hw
    split_ifs at hw with hq
    · cases hw
      rw [hv'] at hp'
      cases hp'
    · exact h.ausente hq' hw hp'
  · intro f hf hg
    obtain ⟨t, tt, r, w, ht, hr, hw, hm'⟩ := h.ocupado f hf hg
    by_cases hq : r.paginaAsignada = q
    · refine ⟨t, tt, r, v', ht, hr, by rw [h3', if_pos hq], ?_⟩
      rw [hq, hv] at hw
      cases hw
      rw [hm, hm']
    · exact ⟨t, tt, r, w, ht, hr, by rw [h3', if_neg hq, hw], hm'⟩
  · intro q' w hw hp'
    rw [h3'] at hw
    split_ifs at hw with hq
    · cases hw
      rw [hm]
      exact h.rango hv hp
    · exact h.rango hw hp'

/-- The hand of a process. -/
theorem mano (h : Marcos c s fin) (tt' : TablaPrimerNivel) (ht : s.tabla t = some tt)
    (h1 : s'.tabla = Function.update s.tabla t (some tt'))
    (htt : tt'.tablasSegundoNivel = tt.tablasSegundoNivel)
    (hl : tt'.paginasAsignadas = tt.paginasAsignadas) (h2 : s'.largo = s.largo)
    (h3 : s'.pagina = s.pagina) (h4 : s'.registroEspacioUsuario = s.registroEspacioUsuario) :
    Marcos c s' fin := by
  have hd := dir_update (c := c) ht h1 htt h2
  have hu : ∀ {u tu}, s'.tabla u = some tu →
      ∃ tu', s.tabla u = some tu' ∧ tu.paginasAsignadas = tu'.paginasAsignadas := fun {u tu} hu => by
    rcases tabla_update h1 hu with ⟨rfl, rfl⟩ | ⟨-, hu⟩
    · exact ⟨tt, ht, hl⟩
    · exact ⟨tu, hu, rfl⟩
  constructor
  · exact h.unicas_update ht h1 htt
  · exact h.creadas_update ht h1 h2 htt
  · intro u tu r hu1 hr
    obtain ⟨tu', hu1, he⟩ := hu hu1
    rw [hd, h3, h4]
    exact h.asignada hu1 (he ▸ hr)
  · intro u tu hu1
    obtain ⟨tu', hu1, he⟩ := hu hu1
    exact he ▸ h.nodup hu1
  · intro u tu p q w hf hu1
    obtain ⟨tu', hu1, he⟩ := hu hu1
    rw [he, hd, h3]
    exact h.presente hf hu1
  · intro u p q w
    rw [hd, h3]
    exact h.ausente
  · intro f hf hg
    rw [h4] at hg
    rw [h3]
    obtain ⟨u, tu, r, w, hu1, hr, hw, hm⟩ := h.ocupado f hf hg
    by_cases hut : u = t
    · subst hut
      rw [ht] at hu1
      cases hu1
      exact ⟨u, tt', r, w, by rw [h1, Function.update_self], hl ▸ hr, hw, hm⟩
    · exact ⟨u, tu, r, w, by rw [h1, Function.update_of_ne hut, hu1], hr, hw, hm⟩
  · intro q w
    rw [h3]
    exact h.rango

/-- A page that is taken out: its frame is free and, unless the process is finished, its
bits are cleared. -/
theorem quitar (h : Marcos c s fin) (tt' : TablaPrimerNivel) (v' : Pagina) (ht : s.tabla t = some tt)
    (hr : r ∈ tt.paginasAsignadas) (hv : s.pagina r.paginaAsignada = some v)
    (hv' : t ∈ fin ∧ v' = v ∨ v'.presencia = false ∧ v'.uso = false ∧ v'.modificado = false)
    (hl : ∀ r', r' ∈ tt'.paginasAsignadas ↔ r' ∈ tt.paginasAsignadas ∧ r' ≠ r)
    (hn : (tt'.paginasAsignadas.map (·.numeroPagina)).Nodup)
    (htt : tt'.tablasSegundoNivel = tt.tablasSegundoNivel)
    (h1 : s'.tabla = Function.update s.tabla t (some tt')) (h2 : s'.largo = s.largo)
    (h3 : s'.pagina = Function.update s.pagina r.paginaAsignada (some v')) {g : RegistroEU}
    (hg : g.asignado = false)
    (h4 : s'.registroEspacioUsuario = Function.update s.registroEspacioUsuario v.numeroMarco g) :
    Marcos c s' fin := by
  have hd := dir_update (c := c) ht h1 htt h2
  -- an entry of the new state was one of the old state, and is not `r`
  have hu : ∀ {u tu r'}, s'.tabla u = some tu → r' ∈ tu.paginasAsignadas →
      ∃ tu', s.tabla u = some tu' ∧ r' ∈ tu'.paginasAsignadas ∧ (u = t → r' ≠ r) :=
    fun {u tu r'} hu hr' => by
      rcases tabla_update h1 hu with ⟨rfl, rfl⟩ | ⟨hne, hu⟩
      · exact ⟨tt, ht, ((hl r').mp hr').1, fun _ => ((hl r').mp hr').2⟩
      · exact ⟨tu, hu, hr', fun he => absurd he hne⟩
  have h3' : ∀ q', q' ≠ r.paginaAsignada → s'.pagina q' = s.pagina q' := fun q' hq' => by
    rw [h3, Function.update_of_ne hq']
  constructor
  · exact h.unicas_update ht h1 htt
  · exact h.creadas_update ht h1 h2 htt
  · intro u tu r' hu1 hr'
    obtain ⟨tu', hu1, hr', hne⟩ := hu hu1 hr'
    obtain ⟨ha, w, hw, hp, hc, hreg⟩ := h.asignada hu1 hr'
    have hq : r'.paginaAsignada ≠ r.paginaAsignada := fun hq => by
      obtain ⟨h5, h6⟩ := h.mismo hu1 hr' ht hr hq
      exact hne h5 h6
    have hf : w.numeroMarco ≠ v.numeroMarco := fun hf => by
      obtain ⟨h5, h6⟩ := h.exclusivo hu1 hr' hw ht hr hv hf
      exact hne h5 h6
    rw [hd, h3' _ hq, h4]
    exact ⟨ha, w, hw, hp, hc, by rw [Function.update_of_ne hf, hreg]⟩
  · intro u tu hu1
    rcases tabla_update h1 hu1 with ⟨rfl, rfl⟩ | ⟨-, hu1⟩
    · exact hn
    · exact h.nodup hu1
  · intro u tu p' q' w hf hu1 hq' hw hp'
    rw [hd] at hq'
    by_cases hq : q' = r.paginaAsignada
    · obtain ⟨rfl, -⟩ := h.distintas (hq ▸ hq') (h.asignada ht hr).1
      rw [hq, h3, Function.update_self] at hw
      cases hw
      rcases hv' with ⟨hv', -⟩ | ⟨hv', -⟩
      · exact absurd hv' hf
      · rw [hv'] at hp'
        cases hp'
    · rw [h3' _ hq] at hw
      rcases tabla_update h1 hu1 with ⟨rfl, rfl⟩ | ⟨-, hu1⟩
      · refine (hl _).mpr ⟨h.presente hf ht hq' hw hp', fun he => hq ?_⟩
        rw [← he]
      · exact h.presente hf hu1 hq' hw hp'
  · intro u p' q' w hq' hw hp'
    rw [hd] at hq'
    by_cases hq : q' = r.paginaAsignada
    · rw [hq, h3, Function.update_self] at hw
      cases hw
      rcases hv' with ⟨-, hv'⟩ | ⟨-, hv'⟩
      · rw [hv'] at hp' ⊢
        exact h.ausente (p := p') (hq ▸ hq') hv hp'
      · exact hv'
    · rw [h3' _ hq] at hw
      exact h.ausente hq' hw hp'
  · intro f hf hreg
    rw [h4, Function.update_apply] at hreg
    split_ifs at hreg with hfm
    · rw [hg] at hreg
      cases hreg
    · obtain ⟨u, tu, r', w, hu1, hr', hw, hm⟩ := h.ocupado f hf hreg
      have hne : ¬ (u = t ∧ r' = r) := by
        rintro ⟨rfl, rfl⟩
        rw [hv] at hw
        cases hw
        exact hfm hm.symm
      have hq : r'.paginaAsignada ≠ r.paginaAsignada := fun hq => hne (h.mismo hu1 hr' ht hr hq)
      by_cases hut : u = t
      · subst hut
        rw [ht] at hu1
        cases hu1
        exact ⟨u, tt', r', w, by rw [h1, Function.update_self], (hl r').mpr ⟨hr', fun he => hne ⟨rfl, he⟩⟩,
          by rw [h3' _ hq, hw], hm⟩
      · exact ⟨u, tu, r', w, by rw [h1, Function.update_of_ne hut, hu1], hr', by rw [h3' _ hq, hw], hm⟩
  · intro q' w hw hp'
    by_cases hq : q' = r.paginaAsignada
    · rw [hq, h3, Function.update_self] at hw
      cases hw
      rcases hv' with ⟨-, rfl⟩ | ⟨hv', -⟩
      · exact h.rango hv hp'
      · rw [hv'] at hp'
        cases hp'
    · rw [h3' _ hq] at hw
      exact h.rango hw hp'

/-- A page that is put in a free frame. -/
theorem asignar (h : Marcos c s fin) (tt' : TablaPrimerNivel) (v' : Pagina)
    (ht : s.tabla t = some tt) (hq : dir c s t p = some q)
    (hv : s.pagina q = some v) (hp : v.presencia = false) {f : ℕ} (hf : f < c.cantidad)
    (hlibre : (s.registroEspacioUsuario f).asignado = false) (hv' : v'.presencia = true)
    (hm : v'.numeroMarco = f)
    (hl : ∀ r', r' ∈ tt'.paginasAsignadas ↔ r' ∈ tt.paginasAsignadas ∨ r' = ⟨p, q⟩)
    (hn : (tt'.paginasAsignadas.map (·.numeroPagina)).Nodup)
    (htt : tt'.tablasSegundoNivel = tt.tablasSegundoNivel)
    (h1 : s'.tabla = Function.update s.tabla t (some tt')) (h2 : s'.largo = s.largo)
    (h3 : s'.pagina = Function.update s.pagina q (some v'))
    (h4 : s'.registroEspacioUsuario = Function.update s.registroEspacioUsuario f ⟨true, t, p⟩) :
    Marcos c s' fin := by
  have hd := dir_update (c := c) ht h1 htt h2
  have h3' : ∀ q', q' ≠ q → s'.pagina q' = s.pagina q' := fun q' hq' => by
    rw [h3, Function.update_of_ne hq']
  -- the entries of the old state keep their page and their frame
  have hviejo : ∀ {u tu r'}, s.tabla u = some tu → r' ∈ tu.paginasAsignadas →
      dir c s u r'.numeroPagina = some r'.paginaAsignada ∧ ∃ w, s'.pagina r'.paginaAsignada = some w ∧
        w.presencia = true ∧ w.numeroMarco < c.cantidad ∧
        s'.registroEspacioUsuario w.numeroMarco = ⟨true, u, r'.numeroPagina⟩ := fun {u tu r'} hu hr' => by
    obtain ⟨ha, w, hw, hp', hc, hreg⟩ := h.asignada hu hr'
    have hne : r'.paginaAsignada ≠ q := by
      rintro rfl
      rw [hv] at hw
      cases hw
      rw [hp] at hp'
      cases hp'
    have hf : w.numeroMarco ≠ f := by
      rintro rfl
      rw [hreg] at hlibre
      cases hlibre
    exact ⟨ha, w, by rw [h3' _ hne, hw], hp', hc, by rw [h4, Function.update_of_ne hf, hreg]⟩
  constructor
  · exact h.unicas_update ht h1 htt
  · exact h.creadas_update ht h1 h2 htt
  · intro u tu r' hu1 hr'
    rw [hd]
    rcases tabla_update h1 hu1 with ⟨rfl, rfl⟩ | ⟨-, hu1⟩
    · rcases (hl r').mp hr' with hr' | rfl
      · exact hviejo ht hr'
      · refine ⟨hq, v', by rw [h3, Function.update_self], hv', hm ▸ hf, ?_⟩
        rw [hm, h4, Function.update_self]
    · exact hviejo hu1 hr'
  · intro u tu hu1
    rcases tabla_update h1 hu1 with ⟨rfl, rfl⟩ | ⟨-, hu1⟩
    · exact hn
    · exact h.nodup hu1
  · intro u tu p' q' w hfin hu1 hq' hw hp'
    rw [hd] at hq'
    by_cases hqq : q' = q
    · obtain ⟨rfl, rfl⟩ := h.distintas (hqq ▸ hq') hq
      rcases tabla_update h1 hu1 with ⟨-, rfl⟩ | ⟨hne, -⟩
      · exact (hl _).mpr (Or.inr (by rw [hqq]))
      · exact absurd rfl hne
    · rw [h3' _ hqq] at hw
      rcases tabla_update h1 hu1 with ⟨rfl, rfl⟩ | ⟨-, hu1⟩
      · exact (hl _).mpr (Or.inl (h.presente hfin ht hq' hw hp'))
      · exact h.presente hfin hu1 hq' hw hp'
  · intro u p' q' w hq' hw hp'
    rw [hd] at hq'
    by_cases hqq : q' = q
    · rw [hqq, h3, Function.update_self] at hw
      cases hw
      rw [hv'] at hp'
      cases hp'
    · rw [h3' _ hqq] at hw
      exact h.ausente hq' hw hp'
  · intro f' hf' hreg
    rw [h4, Function.update_apply] at hreg
    split_ifs at hreg with hff
    · exact ⟨t, tt', ⟨p, q⟩, v', by rw [h1, Function.update_self], (hl _).mpr (Or.inr rfl),
        by rw [h3, Function.update_self], by rw [hm, hff]⟩
    · obtain ⟨u, tu, r', w, hu1, hr', hw, hm'⟩ := h.ocupado f' hf' hreg
      have hne : r'.paginaAsignada ≠ q := by
        rintro rfl
        obtain ⟨-, w', hw', hp', -⟩ := h.asignada hu1 hr'
        rw [hv] at hw'
        cases hw'
        rw [hp] at hp'
        cases hp'
      by_cases hut : u = t
      · subst hut
        rw [ht] at hu1
        cases hu1
        exact ⟨u, tt', r', w, by rw [h1, Function.update_self], (hl r').mpr (Or.inl hr'),
          by rw [h3' _ hne, hw], hm'⟩
      · exact ⟨u, tu, r', w, by rw [h1, Function.update_of_ne hut, hu1], hr', by rw [h3' _ hne, hw], hm'⟩
  · intro q' w hw hp'
    by_cases hqq : q' = q
    · rw [hqq, h3, Function.update_self] at hw
      cases hw
      rw [hm]
      exact hf
    · rw [h3' _ hqq] at hw
      exact h.rango hw hp'

/-- A page is put in the place of another one, that was not used or modified: the old page is
taken out, and the new one goes to the frame that is free then. -/
theorem cambiar (h : Marcos c s fin) (ht : s.tabla t = some tt) {i : ℕ} (hi : tt.paginasAsignadas[i]? = some r)
    (hv : s.pagina r.paginaAsignada = some v) (huso : v.uso = false) (hmod : v.modificado = false)
    (hq : dir c s t p = some q) {w : Pagina} (hw : s.pagina q = some w) (hp : w.presencia = false)
    (hnot : p ∉ tt.paginasAsignadas.map (·.numeroPagina)) (x : ℕ)
    (h1 : s'.tabla = Function.update s.tabla t (some { tt with
      paginasAsignadas := tt.paginasAsignadas.set i ⟨p, q⟩
      punteroMarcos := x })) (h2 : s'.largo = s.largo)
    (h3 : s'.pagina = Function.update (Function.update s.pagina r.paginaAsignada
      (some { v with presencia := false })) q
      (some { w with presencia := true, uso := true, numeroMarco := v.numeroMarco }))
    (h4 : s'.registroEspacioUsuario =
      Function.update s.registroEspacioUsuario v.numeroMarco ⟨true, t, p⟩) : Marcos c s' fin := by
  have hr := List.mem_of_getElem? hi
  obtain ⟨hil, -⟩ := List.getElem?_eq_some_iff.mp hi
  obtain ⟨-, v1, hv1, hp1, hf, -⟩ := h.asignada ht hr
  rw [hv] at hv1
  cases hv1
  have hqr : q ≠ r.paginaAsignada := by
    rintro rfl
    rw [hv] at hw
    cases hw
    rw [hp] at hp1
    cases hp1
  have hsub : ∀ r', r' ∈ tt.paginasAsignadas.eraseIdx i ↔ r' ∈ tt.paginasAsignadas ∧ r' ≠ r :=
    fun r' => mem_eraseIdx_of_nodup (List.Nodup.of_map _ (h.nodup ht)) hi
  -- the state without the old page
  set s1 := ((s.conPagina r.paginaAsignada fun w => { w with presencia := false }).conTabla t fun tt =>
    { tt with paginasAsignadas := tt.paginasAsignadas.eraseIdx i }).conRegistro v.numeroMarco
      fun g => { g with asignado := false } with hs1
  have ht1 : s1.tabla = Function.update s.tabla t
      (some { tt with paginasAsignadas := tt.paginasAsignadas.eraseIdx i }) := by
    rw [hs1, tabla_conRegistro, tabla_conTabla, tabla_conPagina, ht, Option.map_some]
  have hp3 : s1.pagina = Function.update s.pagina r.paginaAsignada (some { v with presencia := false }) := by
    rw [hs1, pagina_conRegistro, pagina_conTabla, pagina_conPagina, hv, Option.map_some]
  have hl1 : s1.largo = s.largo := by
    rw [hs1, largo_conRegistro, largo_conTabla, largo_conPagina]
  have hm1 : Marcos c s1 fin := h.quitar _ { v with presencia := false } ht hr hv (Or.inr ⟨rfl, huso, hmod⟩) hsub
    ((h.nodup ht).sublist ((List.eraseIdx_sublist ..).map _)) (by rfl) ht1 hl1 hp3
    (g := { s.registroEspacioUsuario v.numeroMarco with asignado := false }) (by rfl) (by rfl)
  have ht1' : s1.tabla t = some { tt with paginasAsignadas := tt.paginasAsignadas.eraseIdx i } := by
    rw [ht1, Function.update_self]
  refine hm1.asignar { tt with paginasAsignadas := tt.paginasAsignadas.set i ⟨p, q⟩, punteroMarcos := x }
    { w with presencia := true, uso := true, numeroMarco := v.numeroMarco } ht1' (p := p) (q := q) ?_
    (v := w) (by rw [hp3, Function.update_of_ne hqr, hw]) hp hf ?_ (by rfl) (by rfl)
    (fun r' => mem_set_iff_eraseIdx hil) ?_ (by rfl) ?_ (h2.trans hl1.symm) (by rw [h3, hp3]) ?_
  · rw [dir_update ht ht1 rfl hl1, hq]
  · rw [hs1, registro_conRegistro, Function.update_self]
  · rw [List.map_set]
    exact (h.nodup ht).set hnot
  · rw [h1, ht1, Function.update_idem]
  · rw [h4, hs1, registro_conRegistro, Function.update_idem]
    rfl

end Marcos

/-! ### A new process -/

/-- The second-level tables that a process gets are the next ones, with nothing present. -/
theorem foldl_crearTablaPaginas_toU32 : ∀ (ns : List ℕ) (x : List ℕ × List (List Pagina)),
    ns.foldl crearTablaPaginas x =
      (x.1 ++ (List.range' x.2.length ns.length).map fun n : ℕ => toU32 n,
        x.2 ++ ns.map fun n => List.replicate (vueltas n) { numeroMarco := 0 })
  | [], x => by simp
  | n :: ns, x => by
    have h1 : (crearTablaPaginas x n).2.length = x.2.length + 1 := by simp [crearTablaPaginas]
    rw [List.foldl_cons, foldl_crearTablaPaginas_toU32 ns _, h1]
    simp [crearTablaPaginas, List.range'_succ]

theorem foldl_crearTablaPaginas (ns : List ℕ) (x : List ℕ × List (List Pagina))
    (h : x.2.length + ns.length ≤ 2 ^ 32) : ns.foldl crearTablaPaginas x =
      (x.1 ++ List.range' x.2.length ns.length,
        x.2 ++ ns.map fun n => List.replicate (vueltas n) { numeroMarco := 0 }) := by
  rw [foldl_crearTablaPaginas_toU32, List.map_congr_left (g := id), List.map_id]
  intro n hn
  rw [List.mem_range'_1] at hn
  exact toU32_of_lt (by omega)

/-- What a creation does to the tables. -/
structure Crea (s s' : MemoriaGlobal) (tt : TablaPrimerNivel) : Prop where
  tablas : s'.listaTablasDeTablas = s.listaTablasDeTablas ++ [tt]
  paginas : ∃ ls, s'.listaTablasDePaginas = s.listaTablasDePaginas ++ ls ∧
    tt.tablasSegundoNivel = List.range' s.listaTablasDePaginas.length ls.length ∧
    ∀ l ∈ ls, ∀ v ∈ l, v = { numeroMarco := 0 }
  asignadas : tt.paginasAsignadas = []
  registro : s'.registroEspacioUsuario = s.registroEspacioUsuario

namespace Crea

variable {tt tu : TablaPrimerNivel} {u : ℕ} {v : Pagina}

theorem tabla_nueva (h : Crea s s' tt) : s'.tabla s.listaTablasDeTablas.length = some tt := by
  rw [MemoriaGlobal.tabla, h.tablas, List.getElem?_concat_length]

theorem tabla_vieja (h : Crea s s' tt) (hu : u ≠ s.listaTablasDeTablas.length) : s'.tabla u = s.tabla u := by
  simp only [MemoriaGlobal.tabla, h.tablas, List.getElem?_append]
  split_ifs with h1
  · rfl
  · rw [List.getElem?_eq_none (by rw [List.length_singleton]; omega), List.getElem?_eq_none (by omega)]

/-- The tables that were there keep their entries. -/
theorem largo_viejo (h : Crea s s' tt) {n : ℕ} (hn : (s.largo n).isSome) : s'.largo n = s.largo n := by
  obtain ⟨ls, hl, -⟩ := h.paginas
  rw [isSome_largo] at hn
  rw [MemoriaGlobal.largo, MemoriaGlobal.largo, hl, List.getElem?_append_left hn]

theorem pagina_vieja (h : Crea s s' tt) (hn : (s.largo q.1).isSome) : s'.pagina q = s.pagina q := by
  obtain ⟨ls, hl, -⟩ := h.paginas
  rw [isSome_largo] at hn
  rw [MemoriaGlobal.pagina, MemoriaGlobal.pagina, paginaEn, paginaEn, hl, List.getElem?_append_left hn]

/-- The new entries are empty. -/
theorem pagina_nueva (h : Crea s s' tt) (hn : q.1 ∈ tt.tablasSegundoNivel) (hv : s'.pagina q = some v) :
    v = { numeroMarco := 0 } := by
  obtain ⟨ls, hl, ht, hv0⟩ := h.paginas
  rw [ht, List.mem_range'_1] at hn
  obtain ⟨l, hl1, hv⟩ := Option.bind_eq_some_iff.mp hv
  rw [hl, List.getElem?_append_right hn.1] at hl1
  exact hv0 l (List.mem_of_getElem? hl1) v (List.mem_of_getElem? hv)

end Crea

theorem dir_mem {tt : TablaPrimerNivel} (ht : s.tabla t = some tt) (h : dir c s t p = some q) :
    q.1 ∈ tt.tablasSegundoNivel := by
  unfold dir at h
  rw [ht, Option.bind_some] at h
  obtain ⟨n, hn, h⟩ := Option.bind_eq_some_iff.mp h
  obtain ⟨k, -, h⟩ := Option.bind_eq_some_iff.mp h
  split_ifs at h
  rw [← Option.some.inj h]
  exact List.mem_of_getElem? hn

namespace Marcos

variable {fin : List ℕ} {tt tu : TablaPrimerNivel} {u : ℕ}

theorem dir_crear (h : Marcos c s fin) (hc : Crea s s' tt) (hu : u ≠ s.listaTablasDeTablas.length) :
    dir c s' u = dir c s u := by
  funext p
  unfold dir
  rw [hc.tabla_vieja hu]
  rcases ht : s.tabla u with _ | tu
  · rfl
  · simp only [Option.bind_some]
    rcases hn : tu.tablasSegundoNivel[numeroDeTabla c p]? with _ | n
    · rfl
    · simp only [Option.bind_some]
      rw [hc.largo_viejo (h.creadas ht (List.mem_of_getElem? hn))]

/-- **A new process.** Nothing of it is in memory. -/
theorem crear (h : Marcos c s fin) (hc : Crea s s' tt) : Marcos c s' fin := by
  -- a table of the new state is the new one or was there
  have hu : ∀ {u tu}, s'.tabla u = some tu →
      u = s.listaTablasDeTablas.length ∧ tu = tt ∨ u ≠ s.listaTablasDeTablas.length ∧ s.tabla u = some tu :=
    fun {u tu} hu => by
      by_cases he : u = s.listaTablasDeTablas.length
      · rw [he, hc.tabla_nueva] at hu
        exact Or.inl ⟨he, (Option.some.inj hu).symm⟩
      · exact Or.inr ⟨he, hc.tabla_vieja he ▸ hu⟩
  have hnueva : ∀ {n}, n ∈ tt.tablasSegundoNivel → ¬ (s.largo n).isSome := fun {n} hn => by
    obtain ⟨ls, -, ht, -⟩ := hc.paginas
    rw [ht, List.mem_range'_1] at hn
    rw [isSome_largo]
    omega
  have hpag : ∀ {u tu p q v}, s'.tabla u = some tu → dir c s' u p = some q → s'.pagina q = some v →
      u = s.listaTablasDeTablas.length ∧ v = { numeroMarco := 0 } ∨
        s.tabla u = some tu ∧ dir c s u p = some q ∧ s.pagina q = some v := fun {u tu p q v} h1 h2 h3 => by
    rcases hu h1 with ⟨rfl, rfl⟩ | ⟨hne, h4⟩
    · exact Or.inl ⟨rfl, hc.pagina_nueva (dir_mem h1 h2) h3⟩
    · rw [h.dir_crear hc hne] at h2
      rw [hc.pagina_vieja (h.creadas h4 (dir_mem h4 h2))] at h3
      exact Or.inr ⟨h4, h2, h3⟩
  constructor
  · intro t tu t' tu' i i' n h1 h2 h3 h4
    rcases hu h1 with ⟨rfl, rfl⟩ | ⟨-, h1⟩ <;> rcases hu h3 with ⟨rfl, rfl⟩ | ⟨-, h3⟩
    · refine ⟨rfl, ?_⟩
      obtain ⟨ls, -, ht, -⟩ := hc.paginas
      rw [ht] at h2 h4
      obtain ⟨_, h2⟩ := List.getElem?_eq_some_iff.mp h2
      obtain ⟨_, h4⟩ := List.getElem?_eq_some_iff.mp h4
      rw [List.getElem_range'] at h2 h4
      omega
    · exact absurd (h.creadas h3 (List.mem_of_getElem? h4)) (hnueva (List.mem_of_getElem? h2))
    · exact absurd (h.creadas h1 (List.mem_of_getElem? h2)) (hnueva (List.mem_of_getElem? h4))
    · exact h.unicas h1 h2 h3 h4
  · intro t tu n h1 h2
    rcases hu h1 with ⟨rfl, rfl⟩ | ⟨-, h1⟩
    · obtain ⟨ls, hl, ht, -⟩ := hc.paginas
      rw [ht, List.mem_range'_1] at h2
      rw [isSome_largo, hl, List.length_append]
      exact h2.2
    · rw [hc.largo_viejo (h.creadas h1 h2)]
      exact h.creadas h1 h2
  · intro t tu r h1 hr
    rcases hu h1 with ⟨rfl, rfl⟩ | ⟨hne, h1⟩
    · rw [hc.asignadas] at hr
      cases hr
    · obtain ⟨h2, v, hv, h3⟩ := h.asignada h1 hr
      rw [h.dir_crear hc hne, hc.pagina_vieja (h.creadas h1 (dir_mem h1 h2)), hc.registro]
      exact ⟨h2, v, hv, h3⟩
  · intro t tu h1
    rcases hu h1 with ⟨rfl, rfl⟩ | ⟨-, h1⟩
    · rw [hc.asignadas]
      exact List.nodup_nil
    · exact h.nodup h1
  · intro t tu p q v hf h1 h2 h3 hp
    rcases hpag h1 h2 h3 with ⟨-, rfl⟩ | ⟨h4, h5, h6⟩
    · cases hp
    · exact h.presente hf h4 h5 h6 hp
  · intro t p q v h2 h3 hp
    obtain ⟨tu, h1, -⟩ := Option.bind_eq_some_iff.mp h2
    rcases hpag h1 h2 h3 with ⟨-, rfl⟩ | ⟨h4, h5, h6⟩
    · exact ⟨rfl, rfl⟩
    · exact h.ausente h5 h6 hp
  · intro f hf hg
    rw [hc.registro] at hg
    obtain ⟨t, tu, r, v, h1, hr, hv, hm⟩ := h.ocupado f hf hg
    have hne : t ≠ s.listaTablasDeTablas.length := by
      rintro rfl
      rw [MemoriaGlobal.tabla, List.getElem?_eq_none (le_refl _)] at h1
      cases h1
    refine ⟨t, tu, r, v, by rw [hc.tabla_vieja hne, h1], hr, ?_, hm⟩
    rw [hc.pagina_vieja (h.creadas h1 (dir_mem h1 (h.asignada h1 hr).1)), hv]
  · intro q v hv hp
    by_cases hn : q.1 < s.listaTablasDePaginas.length
    · rw [hc.pagina_vieja (isSome_largo.mpr hn)] at hv
      exact h.rango hv hp
    · obtain ⟨ls, hls, -, hv0⟩ := hc.paginas
      obtain ⟨l, hl, hv⟩ := Option.bind_eq_some_iff.mp hv
      rw [hls, List.getElem?_append_right (not_lt.mp hn)] at hl
      rw [hv0 l (List.mem_of_getElem? hl) v (List.mem_of_getElem? hv)] at hp
      cases hp

/-- At the start there is nothing to agree on. -/
theorem inicial (h : Inicial c s) : Marcos c s [] := by
  have ht : ∀ t, s.tabla t = none := fun t => by
    rw [MemoriaGlobal.tabla, h.tablas]
    rfl
  have hd : ∀ t p, dir c s t p = none := fun t p => by
    unfold dir
    rw [ht]
    rfl
  constructor
  any_goals simp only [ht, hd, reduceCtorEq, false_imp_iff, implies_true]
  · intro f hf hg
    rw [h.libre f hf] at hg
    cases hg
  · intro q v hv
    rw [MemoriaGlobal.pagina, paginaEn, h.paginas] at hv
    cases hv

end Marcos

end Memoria
end Kiss
