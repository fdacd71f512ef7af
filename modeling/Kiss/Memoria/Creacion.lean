/-
# New processes

`iniciar_nuevo_proceso`: the tables and the file that a new process gets, and that what
was there stays. The numbers of the tables are `uint32_t`, so they are followed while
there are fewer than `2 ^ 32` of them.

Key definitions: `Proceso.nuevo`, `Nace`.
Key theorems: `iniciar_nace`, `Nace.vista_vieja`.
-/
import Kiss.Memoria.Proceso

namespace Kiss
namespace Memoria

variable {c : ConfigMemoria} {s s' : MemoriaGlobal} {tam pid n : ℕ} {fin : List ℕ} {v : Proceso}

/-- The tables have numbers. -/
structure Numerable (s : MemoriaGlobal) : Prop where
  tablas : s.listaTablasDeTablas.length < 2 ^ 32
  paginas : s.listaTablasDePaginas.length ≤ 2 ^ 32

/-- The file of a process of `tam` bytes. -/
def archivoNuevo (c : ConfigMemoria) (tam : ℕ) : Option Archivo :=
  let bloques := Flotante.ceilDiv 53 tam c.tamPagina
  if bloques < 2 ^ 31 then some ⟨(toInt (bloques * c.tamPagina : ℕ)).toNat, fun _ => 0⟩ else none

/-- A process of `tam` bytes that has just been created. -/
def Proceso.nuevo (c : ConfigMemoria) (tam : ℕ) : Option Proceso := do
  let paginas ← ceilFloat tam c.tamPagina
  let tablas ← ceilFloat paginas c.entradasPorTabla
  let archivo ← archivoNuevo c tam
  some {
    residentes := []
    puntero := 0
    archivo := some archivo
    tablas := (paginasPorTabla c paginas tablas).map fun n => some (vueltas n) }

/-- `s'` is `s` with the new process `v`. -/
structure Nace (c : ConfigMemoria) (s s' : MemoriaGlobal) (pid : ℕ) (v : Proceso) : Prop where
  crea : ∃ tt, Crea s s' tt ∧ tt.pcbId = pid
  vista : vista c s' s.listaTablasDeTablas.length = some v
  espacio : s'.espacioUsuario = s.espacioUsuario
  swap : s'.swap = Function.update s.swap pid v.archivo

theorem crearArchivoSwap_eq {tt : TablaPrimerNivel} {t : ℕ} (ht : s.tabla t = some tt) :
    crearArchivoSwap c s t tam =
      (archivoNuevo c tam).map fun a => s.conSwap tt.pcbId (some a) := by
  unfold crearArchivoSwap archivoNuevo
  simp only [ht, Option.bind_eq_bind, Option.bind_some]
  split_ifs <;> rfl

/-- The limit on the size, as the module compares it. -/
theorem toU32_tamMaximo (c : ConfigMemoria) :
    toU32 (toInt (c.tamPagina * c.entradasPorTabla * c.entradasPorTabla : ℕ)) =
      c.tamPagina * c.entradasPorTabla * c.entradasPorTabla % 2 ^ 32 := by
  rw [toU32_toInt]
  unfold toU32
  omega

theorem tabla_of_le {t : ℕ} (h : s.listaTablasDeTablas.length ≤ t) : s.tabla t = none :=
  List.getElem?_eq_none h

/-- A process that is too big: the failure value is used as the number of a table. -/
theorem iniciar_grande (hn : s.listaTablasDeTablas.length < 2 ^ 32)
    (h : c.tamPagina * c.entradasPorTabla * c.entradasPorTabla % 2 ^ 32 < tam) :
    iniciarNuevoProceso c s tam pid = none := by
  have h1 : s.tabla u32Max = none := tabla_of_le (by unfold u32Max; omega)
  unfold iniciarNuevoProceso crearTablaPrimerNivel
  simp only [toU32_tamMaximo, if_pos h, Option.bind_eq_bind, Option.bind_some, crearArchivoSwap, h1,
    Option.bind_none]

/-- What the module does when the process fits. -/
theorem iniciar_cabe (h : ¬ c.tamPagina * c.entradasPorTabla * c.entradasPorTabla % 2 ^ 32 < tam)
    {paginas tablas : ℕ} (h1 : ceilFloat tam c.tamPagina = some paginas)
    (h2 : ceilFloat paginas c.entradasPorTabla = some tablas)
    (hn : s.listaTablasDeTablas.length < 2 ^ 32) :
    iniciarNuevoProceso c s tam pid = (archivoNuevo c tam).map fun a =>
      (s.listaTablasDeTablas.length, { s with
        listaTablasDePaginas := s.listaTablasDePaginas ++
          (paginasPorTabla c paginas tablas).map fun n => List.replicate (vueltas n) { numeroMarco := 0 }
        listaTablasDeTablas := s.listaTablasDeTablas ++
          [{ tablasSegundoNivel := (List.range' s.listaTablasDePaginas.length
              (paginasPorTabla c paginas tablas).length).map fun n : ℕ => toU32 n
             pcbId := pid }]
        swap := Function.update s.swap pid (some a) }) := by
  unfold iniciarNuevoProceso crearTablaPrimerNivel
  simp only [toU32_tamMaximo, if_neg h, h1, h2, Option.bind_eq_bind, Option.bind_some,
    foldl_crearTablaPaginas_toU32, toU32_of_lt hn]
  rw [crearArchivoSwap_eq (List.getElem?_concat_length ..)]
  rcases archivoNuevo c tam with _ | a
  · rfl
  · simp [MemoriaGlobal.conSwap]

theorem iniciar_chico (h : ¬ c.tamPagina * c.entradasPorTabla * c.entradasPorTabla % 2 ^ 32 < tam)
    {paginas tablas : ℕ} (h1 : ceilFloat tam c.tamPagina = some paginas)
    (h2 : ceilFloat paginas c.entradasPorTabla = some tablas)
    (hn : s.listaTablasDeTablas.length < 2 ^ 32)
    (hp : s.listaTablasDePaginas.length + (paginasPorTabla c paginas tablas).length ≤ 2 ^ 32) :
    iniciarNuevoProceso c s tam pid = (archivoNuevo c tam).map fun a =>
      (s.listaTablasDeTablas.length, { s with
        listaTablasDePaginas := s.listaTablasDePaginas ++
          (paginasPorTabla c paginas tablas).map fun n => List.replicate (vueltas n) { numeroMarco := 0 }
        listaTablasDeTablas := s.listaTablasDeTablas ++
          [{ tablasSegundoNivel := List.range' s.listaTablasDePaginas.length
              (paginasPorTabla c paginas tablas).length
             pcbId := pid }]
        swap := Function.update s.swap pid (some a) }) := by
  rw [iniciar_cabe h h1 h2 hn, List.map_congr_left (g := id), List.map_id]
  intro n hn
  rw [List.mem_range'_1] at hn
  exact toU32_of_lt (by omega)

theorem length_foldl_crearTablaPaginas : ∀ (ns : List ℕ) (x : List ℕ × List (List Pagina)),
    (ns.foldl crearTablaPaginas x).2.length = x.2.length + ns.length
  | [], _ => rfl
  | n :: ns, x => by
    rw [List.foldl_cons, length_foldl_crearTablaPaginas ns, List.length_cons, crearTablaPaginas,
      List.length_append, List.length_singleton]
    omega

theorem crearArchivoSwap_listas {t : ℕ} (h : crearArchivoSwap c s t tam = some s') :
    s'.listaTablasDeTablas = s.listaTablasDeTablas ∧ s'.listaTablasDePaginas = s.listaTablasDePaginas := by
  unfold crearArchivoSwap at h
  obtain ⟨tt, -, h⟩ := Option.bind_eq_some_iff.mp h
  dsimp only at h
  split_ifs at h
  rw [← Option.some.inj h]
  exact ⟨rfl, rfl⟩

/-- A process that the module accepts fits, for the module, and has its tables. -/
theorem iniciar_some (h : iniciarNuevoProceso c s tam pid = some (n, s')) (hn : Numerable s') :
    ¬ c.tamPagina * c.entradasPorTabla * c.entradasPorTabla % 2 ^ 32 < tam ∧
      s.listaTablasDeTablas.length + 1 < 2 ^ 32 ∧
      ∃ paginas tablas, ceilFloat tam c.tamPagina = some paginas ∧
        ceilFloat paginas c.entradasPorTabla = some tablas ∧
        s.listaTablasDePaginas.length + (paginasPorTabla c paginas tablas).length ≤ 2 ^ 32 := by
  have h0 := h
  unfold iniciarNuevoProceso at h
  obtain ⟨⟨m, s1⟩, h1, h⟩ := Option.bind_eq_some_iff.mp h
  obtain ⟨s2, h2, h⟩ := Option.bind_eq_some_iff.mp h
  cases h
  obtain ⟨h3, h4⟩ := crearArchivoSwap_listas h2
  obtain ⟨h5, h6⟩ := hn
  rw [h3] at h5
  rw [h4] at h6
  unfold crearTablaPrimerNivel at h1
  simp only [toU32_tamMaximo] at h1
  by_cases hg : c.tamPagina * c.entradasPorTabla * c.entradasPorTabla % 2 ^ 32 < tam
  · rw [if_pos hg] at h1
    cases h1
    rw [iniciar_grande h5 hg] at h0
    cases h0
  · rw [if_neg hg] at h1
    obtain ⟨paginas, hp, h1⟩ := Option.bind_eq_some_iff.mp h1
    obtain ⟨tablas, ht, h1⟩ := Option.bind_eq_some_iff.mp h1
    cases h1
    rw [List.length_append, List.length_singleton] at h5
    rw [length_foldl_crearTablaPaginas] at h6
    exact ⟨hg, h5, paginas, tablas, hp, ht, h6⟩

/-- **A new process.** -/
theorem iniciar_nace (h : iniciarNuevoProceso c s tam pid = some (n, s')) (hn : Numerable s') :
    n = s.listaTablasDeTablas.length ∧ ∃ v, Proceso.nuevo c tam = some v ∧ Nace c s s' pid v := by
  obtain ⟨hg, h5, paginas, tablas, hp, ht, h6⟩ := iniciar_some h hn
  rw [iniciar_chico hg hp ht (by omega) h6] at h
  obtain ⟨a, ha, h⟩ := Option.map_eq_some_iff.mp h
  obtain ⟨rfl, rfl⟩ := Prod.mk.inj h
  refine ⟨rfl, ⟨[], 0, some a, (paginasPorTabla c paginas tablas).map fun n => some (vueltas n)⟩,
    by simp [Proceso.nuevo, hp, ht, ha], ?_⟩
  refine ⟨⟨_, ⟨rfl, ⟨_, rfl, ?_, ?_⟩, rfl, rfl⟩, rfl⟩, ?_, rfl, rfl⟩
  · rw [List.length_map]
  · intro l hl v hv
    obtain ⟨k, -, rfl⟩ := List.mem_map.mp hl
    exact List.eq_of_mem_replicate hv
  · unfold vista MemoriaGlobal.tabla
    rw [List.getElem?_concat_length, Option.map_some]
    simp only [vistaDe, List.map_nil, Function.update_self, Option.some.injEq, Proceso.mk.injEq, true_and]
    apply List.ext_getElem?
    intro i
    rw [List.getElem?_map, List.getElem?_map]
    by_cases hi : i < (paginasPorTabla c paginas tablas).length
    · rw [List.getElem?_eq_getElem hi, List.getElem?_range' hi]
      simp [MemoriaGlobal.largo, List.getElem?_append_right, List.getElem?_eq_getElem hi]
    · rw [List.getElem?_eq_none (by rw [List.length_range']; omega), List.getElem?_eq_none (by omega)]
      rfl

/-- The process of a table that is still there is what it was, when the pages are only
more and it has the same file. -/
theorem vista_prefijo (hm : Marcos c s fin) {u : ℕ} {ls : List (List Pagina)}
    (htab : s'.tabla u = s.tabla u) (hls : s'.listaTablasDePaginas = s.listaTablasDePaginas ++ ls)
    (hesp : s'.espacioUsuario = s.espacioUsuario)
    (hp : ∀ tu, s.tabla u = some tu → s'.swap tu.pcbId = s.swap tu.pcbId) :
    vista c s' u = vista c s u := by
  have hlargo : ∀ {n}, (s.largo n).isSome → s'.listaTablasDePaginas[n]? = s.listaTablasDePaginas[n]? :=
    fun {n} hn => by rw [hls, List.getElem?_append_left (isSome_largo.mp hn)]
  unfold Memoria.vista
  rw [htab]
  rcases htu : s.tabla u with _ | tu
  · rfl
  rw [Option.map_some, Option.map_some]
  unfold vistaDe
  have h1 : tu.paginasAsignadas.map (residente c s') = tu.paginasAsignadas.map (residente c s) := by
    refine List.map_congr_left fun r hr => ?_
    obtain ⟨hd, -⟩ := hm.asignada htu hr
    refine residente_congr ?_ fun _ _ => by rw [hesp]
    unfold MemoriaGlobal.pagina paginaEn
    rw [hlargo (hm.creadas htu (dir_mem htu hd))]
  have h2 : tu.tablasSegundoNivel.map s'.largo = tu.tablasSegundoNivel.map s.largo :=
    List.map_congr_left fun n hn => by
      rw [MemoriaGlobal.largo, MemoriaGlobal.largo, hlargo (hm.creadas htu hn)]
  rw [h1, h2, hp tu htu]

/-- The other processes are what they were, when no one of them has that file. -/
theorem Nace.vista_vieja (h : Nace c s s' pid v) (hm : Marcos c s fin) {u : ℕ}
    (hu : u ≠ s.listaTablasDeTablas.length) (hp : ∀ tu, s.tabla u = some tu → tu.pcbId ≠ pid) :
    Memoria.vista c s' u = Memoria.vista c s u := by
  obtain ⟨tt, hc, -⟩ := h.crea
  obtain ⟨ls, hls, -⟩ := hc.paginas
  exact vista_prefijo hm (hc.tabla_vieja hu) hls h.espacio fun tu htu => by
    rw [h.swap, Function.update_of_ne (hp tu htu)]

end Memoria
end Kiss
