/-
# A process is a flat array

What a process should see of its memory: an array of bytes, all 0 when it is created,
that changes where it writes (`Plano`). A process holds such an array (`Guarda`) when each
page that it has in memory has the bytes of the array, and each page that was not modified
since it was brought has them in its place of the swap file. Every request keeps it, and a
read answers what the array has, as long as no page whose number is not its place in a
table goes to swap (`EnSuLugar`): that one is written in the place of another.

Key definitions: `Plano`, `Guarda`, `Proceso.EnSuLugar`.
Key theorems: `Guarda.traer`, `Guarda.ejecutar`, `guarda_nuevo`.
-/
import Kiss.Memoria.Altas
import Kiss.Memoria.Aislamiento

namespace Kiss
namespace Memoria

open Reloj (avanzar)

/-! ### The array -/

/-- The size of a process and the bytes that it should have. -/
structure Plano where
  tamano : ℕ
  bytes : ℕ → UInt8

namespace Plano

variable (c : ConfigMemoria)

/-- What a request does to the array. -/
def paso (x : Plano) : Pedido → Plano
  | .iniciar tam => ⟨tam, fun _ => 0⟩
  | .escribir p d dato =>
    { x with bytes := Copia.copiar x.bytes (p * c.tamPagina + d) 4 (Copia.palabra dato) }
  | _ => x

/-- The four bytes at a place of a page. -/
def leer (x : Plano) (p d : ℕ) : ℕ := Copia.valor (Copia.leer x.bytes (p * c.tamPagina + d) 4)

/-- The bytes of a page. -/
def pagina (x : Plano) (p : ℕ) : ℕ → UInt8 := Copia.leer x.bytes (p * c.tamPagina) c.tamPagina

/-- How many pages there are. -/
def paginas (x : Plano) : ℕ := paginasDeTamano c x.tamano

end Plano

/-- The array of a process after its requests. -/
def plano (c : ConfigMemoria) (es : List Pedido) : Plano := es.foldl (Plano.paso c) ⟨0, fun _ => 0⟩

/-- An access is to a page of the process, and its four bytes are in the page. -/
def Pedido.Dentro (c : ConfigMemoria) (x : Plano) : Pedido → Prop
  | .escribir p d _ | .leer p d => p < x.paginas c ∧ d + 4 ≤ c.tamPagina
  | .buscarMarco p => p < x.paginas c
  | _ => True

variable {c : ConfigMemoria} {x : Plano} {v v' : Proceso} {p d i : ℕ} {r : Residente} {a : Archivo}
  {l : List Residente}

theorem leer_pagina (hd : d + 4 ≤ c.tamPagina) : Copia.valor (Copia.leer (x.pagina c p) d 4) = x.leer c p d := by
  rw [Plano.pagina, Plano.leer, Copia.leer_of_le hd]

/-- Pages do not overlap. -/
theorem paginas_disjuntas {p q n : ℕ} (h : p ≠ q) : p * n + n ≤ q * n ∨ q * n + n ≤ p * n := by
  rw [← Nat.succ_mul, ← Nat.succ_mul]
  rcases Nat.lt_or_gt_of_ne h with h | h
  · exact Or.inl (Nat.mul_le_mul_right n h)
  · exact Or.inr (Nat.mul_le_mul_right n h)

theorem pagina_escribir (hd : d + 4 ≤ c.tamPagina) (dato : ℕ) :
    (x.paso c (.escribir p d dato)).pagina c p = Copia.copiar (x.pagina c p) d 4 (Copia.palabra dato) :=
  Copia.leer_copiar_of_le hd

theorem pagina_escribir_of_ne {q : ℕ} (hd : d + 4 ≤ c.tamPagina) (dato : ℕ) (hq : q ≠ p) :
    (x.paso c (.escribir p d dato)).pagina c q = x.pagina c q := by
  apply Copia.leer_copiar_of_disjoint
  rcases paginas_disjuntas (n := c.tamPagina) hq with h | h <;> omega

/-! ### The file -/

/-- The place of page `p` of the file has what the array has. -/
def EnArchivo (c : ConfigMemoria) (x : Plano) (a : Archivo) (p : ℕ) : Prop :=
  Copia.leer a.bytes (p * c.tamPagina) c.tamPagina = x.pagina c p

/-- Where a page is read from. -/
theorem posicionSwap_leer (h : p * c.tamPagina < 2 ^ 32) :
    posicionSwap c (numeroDeTabla c p) (numeroDePagina c p) = p * c.tamPagina := by
  rw [posicionSwap, numeroDeTabla, numeroDePagina, Nat.div_add_mod', toU32_of_lt h]

/-- Where a page of the first table is written. -/
theorem posicionSwap_escribir (hp : p < c.entradasPorTabla) (h : p * c.tamPagina < 2 ^ 32) :
    posicionSwap c (numeroDeTabla c p) p = p * c.tamPagina := by
  rw [posicionSwap, numeroDeTabla, Nat.div_eq_of_lt hp, Nat.zero_mul, Nat.zero_add, toU32_of_lt h]

/-- A page written in its place. -/
theorem enArchivo_escribir {n : ℕ} (hsize : a.size = n * c.tamPagina) (hp : p < n) :
    (escribirArchivo c a (p * c.tamPagina) (x.pagina c p)).size = n * c.tamPagina ∧
      EnArchivo c x (escribirArchivo c a (p * c.tamPagina) (x.pagina c p)) p ∧
      ∀ q < n, EnArchivo c x a q → EnArchivo c x (escribirArchivo c a (p * c.tamPagina) (x.pagina c p)) q := by
  have hle : ∀ q < n, q * c.tamPagina + c.tamPagina ≤ n * c.tamPagina := fun q hq => by
    rw [← Nat.succ_mul]
    exact Nat.mul_le_mul_right _ hq
  have hself : EnArchivo c x (escribirArchivo c a (p * c.tamPagina) (x.pagina c p)) p := by
    unfold EnArchivo escribirArchivo
    rw [Copia.leer_copiar]
    exact Copia.leer_leer ..
  refine ⟨?_, hself, fun q hq h => ?_⟩
  · rw [escribirArchivo, hsize]
    exact max_eq_left (hle p hp)
  · by_cases hqp : q = p
    · exact hqp ▸ hself
    · unfold EnArchivo escribirArchivo
      rw [Copia.leer_copiar_of_disjoint (paginas_disjuntas hqp), ← h]
      -- what was in the file is not past its end
      funext j
      have h1 := hle q hq
      unfold Copia.leer
      split_ifs with hj
      · exact if_pos (by omega)
      · rfl

/-! ### The process -/

/-- A page in memory without its bit of use. -/
def sinUso (r : Residente) : Residente := { r with uso := false }

/-- A page in memory with a word written to it. -/
def escrito (d dato : ℕ) (r : Residente) : Residente :=
  { r with uso := true, modificado := true, bytes := Copia.copiar r.bytes d 4 (Copia.palabra dato) }

theorem sinUso_eq {q : Residente} (h : sinUso q = sinUso r) :
    q.numeroPagina = r.numeroPagina ∧ q.modificado = r.modificado ∧ q.bytes = r.bytes := by
  simpa [sinUso] using h

theorem residente_none (h : v.residente p = none) : ∀ r ∈ v.residentes, r.numeroPagina ≠ p := fun r hr he => by
  simpa [he] using List.find?_eq_none.mp h r hr

/-- The search for a victim only changes bits of use. -/
theorem victima_mismos (h : v.victima c = some (l, i)) : l.map sinUso = v.residentes.map sinUso := by
  have hl : ∀ {k : List Residente}, k.map sinUso = v.residentes.map sinUso →
      ∀ i, (bitsDe.limpiar k i).map sinUso = v.residentes.map sinUso := fun {k} hk i => by
    rw [← hk]
    apply List.ext_getElem?
    intro j
    simp only [bitsDe, List.getElem?_map, List.getElem?_modify]
    rcases k[j]? with _ | r
    · rfl
    · by_cases hij : i = j
      · simp [hij, sinUso]
      · simp [hij]
  unfold Proceso.victima at h
  split at h
  · exact Reloj.clock_inv (I := fun k => k.map sinUso = v.residentes.map sinUso) hl rfl h
  · exact Reloj.clockM_inv (I := fun k => k.map sinUso = v.residentes.map sinUso) hl rfl h
  · cases h

theorem bitsDe_legal : bitsDe.Legal := fun l i j => by
  simp only [bitsDe, List.getElem?_modify]
  rcases l[j]? with _ | r
  · simp
  · by_cases hij : i = j
    · simp [hij]
    · simp [hij, Ne.symm hij]

/-- The page has been modified since it was brought. -/
def Proceso.Sucia (v : Proceso) (p : ℕ) : Prop :=
  ∃ r ∈ v.residentes, r.numeroPagina = p ∧ r.modificado = true

/-- The process has the array in its memory and its file. -/
structure Guarda (c : ConfigMemoria) (x : Plano) (v : Proceso) : Prop where
  limite : x.paginas c * c.tamPagina < 2 ^ 31
  entradas : ∀ p < x.paginas c, v.buscar c p = some true
  rango : ∀ r ∈ v.residentes, r.numeroPagina < x.paginas c
  distintas : (v.residentes.map (·.numeroPagina)).Nodup
  memoria : ∀ r ∈ v.residentes, r.bytes = x.pagina c r.numeroPagina
  archivo : ∃ a, v.archivo = some a ∧ a.size = x.paginas c * c.tamPagina ∧
    ∀ p < x.paginas c, ¬ v.Sucia p → EnArchivo c x a p

/-- What a request of the process writes to swap is written in its place. -/
def Proceso.EnSuLugar (c : ConfigMemoria) (v : Proceso) : Pedido → Prop
  | .escribir p _ _ | .leer p _ | .buscarMarco p => v.residente p = none →
    c.marcosPorProceso ≤ v.residentes.length → ∀ l i r, v.victima c = some (l, i) → l[i]? = some r →
      r.modificado = true → r.numeroPagina < c.entradasPorTabla
  | .suspender => ∀ r ∈ v.residentes, r.numeroPagina < c.entradasPorTabla
  | _ => True

namespace Guarda

theorem lugar (h : Guarda c x v) (hp : p < x.paginas c) : p * c.tamPagina < 2 ^ 32 ∧
    p * c.tamPagina + c.tamPagina ≤ x.paginas c * c.tamPagina := by
  have h1 : (p + 1) * c.tamPagina ≤ x.paginas c * c.tamPagina := Nat.mul_le_mul_right _ hp
  have h2 := h.limite
  rw [Nat.succ_mul] at h1
  omega

/-- A page whose place in the file is right is read as it should be. -/
theorem leerSwap {w : Proceso} (h : Guarda c x v) (hp : p < x.paginas c) (ha : w.archivo = some a)
    (hsize : a.size = x.paginas c * c.tamPagina) (hf : EnArchivo c x a p) :
    w.leerSwap c p = some (x.pagina c p) := by
  obtain ⟨h1, h2⟩ := h.lugar hp
  rw [Proceso.leerSwap, ha, Option.bind_some, posicionSwap_leer h1, leerArchivo, if_pos (hsize ▸ h2), hf]

/-- A page of the first table is written in its place. -/
theorem escribirSwap (h : Guarda c x v) (hr : r ∈ v.residentes) (he : r.numeroPagina < c.entradasPorTabla) :
    ∃ a, (∀ w : Proceso, w.archivo = v.archivo → w.escribirSwap c r = some { w with archivo := some a }) ∧
      a.size = x.paginas c * c.tamPagina ∧ ∀ p < x.paginas c,
        (∀ q ∈ v.residentes, q.numeroPagina = p → q.modificado = true → q = r) → EnArchivo c x a p := by
  obtain ⟨a, ha, hsize, hf⟩ := h.archivo
  obtain ⟨h1, -⟩ := h.lugar (h.rango r hr)
  obtain ⟨h2, h3, h4⟩ := enArchivo_escribir (x := x) hsize (h.rango r hr)
  refine ⟨_, fun w hw => ?_, h2, fun p hp hq => ?_⟩
  · rw [Proceso.escribirSwap, hw, ha, Option.map_some, posicionSwap_escribir he h1, h.memoria r hr]
  · by_cases hpr : p = r.numeroPagina
    · exact hpr ▸ h3
    · refine h4 p hp (hf p hp ?_)
      rintro ⟨q, hqm, hqp, hmod⟩
      exact hpr (hq q hqm hqp hmod ▸ hqp.symm)

/-- The victim: after it, only the pages of the others can be modified. -/
theorem guardar (h : Guarda c x v) (hr : r ∈ v.residentes)
    (he : r.modificado = true → r.numeroPagina < c.entradasPorTabla) :
    ∃ a, v.guardar c r = some { v with archivo := some a } ∧ a.size = x.paginas c * c.tamPagina ∧
      ∀ p < x.paginas c,
        (∀ q ∈ v.residentes, q.numeroPagina = p → q.modificado = true → q = r) → EnArchivo c x a p := by
  unfold Proceso.guardar
  by_cases hm : r.modificado = true
  · obtain ⟨a, h1, h2, h3⟩ := h.escribirSwap hr (he hm)
    exact ⟨a, by rw [if_pos hm, h1 v rfl], h2, h3⟩
  · obtain ⟨a, ha, hsize, hf⟩ := h.archivo
    refine ⟨a, by rw [if_neg hm, ← ha], hsize, fun p hp hq => hf p hp ?_⟩
    rintro ⟨q, hqm, hqp, hmod⟩
    exact hm (hq q hqm hqp hmod ▸ hmod)

/-! ### Bits of use -/

/-- The array does not see the bits of use. -/
theorem congr (h : Guarda c x v) (hl : l.map sinUso = v.residentes.map sinUso) (j : ℕ) :
    Guarda c x { v with residentes := l, puntero := j } := by
  have hmem : ∀ r ∈ l, ∃ q ∈ v.residentes, q.numeroPagina = r.numeroPagina ∧ q.modificado = r.modificado ∧
      q.bytes = r.bytes := fun r hr => by
    obtain ⟨q, hq, he⟩ := List.mem_map.mp (hl ▸ List.mem_map_of_mem (f := sinUso) hr)
    exact ⟨q, hq, sinUso_eq he⟩
  have hmem' : ∀ q ∈ v.residentes, ∃ r ∈ l, r.numeroPagina = q.numeroPagina ∧ r.modificado = q.modificado :=
    fun q hq => by
      obtain ⟨r, hr, he⟩ := List.mem_map.mp (hl.symm ▸ List.mem_map_of_mem (f := sinUso) hq)
      obtain ⟨h1, h2, -⟩ := sinUso_eq he
      exact ⟨r, hr, h1, h2⟩
  constructor
  · exact h.limite
  · exact h.entradas
  · intro r hr
    obtain ⟨q, hq, he, -⟩ := hmem r hr
    exact he ▸ h.rango q hq
  · have h1 := congrArg (List.map Residente.numeroPagina) hl
    rw [List.map_map, List.map_map] at h1
    exact (show l.map (·.numeroPagina) = _ from h1) ▸ h.distintas
  · intro r hr
    obtain ⟨q, hq, he, -, hb⟩ := hmem r hr
    rw [← hb, ← he, h.memoria q hq]
  · obtain ⟨a, ha, hsize, hf⟩ := h.archivo
    refine ⟨a, ha, hsize, fun p hp hs => hf p hp ?_⟩
    rintro ⟨q, hq, hqp, hm⟩
    obtain ⟨r, hr, h1, h2⟩ := hmem' q hq
    exact hs ⟨r, hr, h1.trans hqp, h2.trans hm⟩

/-! ### Bringing a page -/

/-- A page that is brought to a free frame. -/
theorem asignar (h : Guarda c x v) (hp : p < x.paginas c) (hno : v.residente p = none) :
    ∃ v', v.asignar c p = some v' ∧ Guarda c x v' := by
  have hnot := residente_none hno
  obtain ⟨a, ha, hsize, hf⟩ := h.archivo
  have hs : ¬ v.Sucia p := by
    rintro ⟨r, hr, he, -⟩
    exact hnot r hr he
  refine ⟨_, by rw [Proceso.asignar, h.leerSwap hp ha hsize (hf p hp hs)]; rfl, ?_⟩
  constructor
  · exact h.limite
  · exact h.entradas
  · intro r hr
    rcases List.mem_append.mp hr with hr | hr
    · exact h.rango r hr
    · rw [List.mem_singleton.mp hr]
      exact hp
  · rw [List.map_append, List.map_singleton, List.nodup_append]
    refine ⟨h.distintas, List.nodup_singleton _, ?_⟩
    intro n hn m hm
    obtain ⟨r, hr, rfl⟩ := List.mem_map.mp hn
    rw [List.mem_singleton.mp hm]
    exact hnot r hr
  · intro r hr
    rcases List.mem_append.mp hr with hr | hr
    · exact h.memoria r hr
    · rw [List.mem_singleton.mp hr]
  · refine ⟨a, ha, hsize, fun q hq hsq => hf q hq ?_⟩
    rintro ⟨r, hr, hrq, hmod⟩
    exact hsq ⟨r, List.mem_append_left _ hr, hrq, hmod⟩

/-- A page that is brought to the frame of another one. -/
theorem reemplazar (h : Guarda c x v) (hp : p < x.paginas c) (hno : v.residente p = none)
    (hvic : v.victima c = some (l, i)) (hr : l[i]? = some r)
    (he : r.modificado = true → r.numeroPagina < c.entradasPorTabla) :
    ∃ v', v.reemplazar c p = some v' ∧ Guarda c x v' := by
  have hl := victima_mismos hvic
  have h1 := h.congr hl i
  have hnot : ∀ q ∈ l, q.numeroPagina ≠ p := fun q hq hqp => by
    obtain ⟨q', hq', heq⟩ := List.mem_map.mp (hl ▸ List.mem_map_of_mem (f := sinUso) hq)
    exact residente_none hno q' hq' ((sinUso_eq heq).1.trans hqp)
  obtain ⟨a, h2, hsize, hf⟩ := h1.guardar (List.mem_of_getElem? hr) he
  have hdato : Proceso.leerSwap c { v with residentes := l, puntero := i, archivo := some a } p =
      some (x.pagina c p) :=
    h.leerSwap hp rfl hsize (hf p hp fun q hq hqp => absurd hqp (hnot q hq))
  refine ⟨⟨l.set i ⟨p, true, false, x.pagina c p⟩, avanzar c.marcosPorProceso i, some a, v.tablas⟩, ?_, ?_⟩
  · simp only [Proceso.reemplazar, hvic, hr, h2, hdato, Option.bind_eq_bind, Option.bind_some]
  constructor
  · exact h.limite
  · exact h.entradas
  · intro q hq
    rcases List.mem_or_eq_of_mem_set hq with hq | rfl
    · exact h1.rango q hq
    · exact hp
  · rw [List.map_set]
    refine h1.distintas.set fun hmem => ?_
    obtain ⟨q, hq, hqp⟩ := List.mem_map.mp hmem
    exact hnot q hq hqp
  · intro q hq
    rcases List.mem_or_eq_of_mem_set hq with hq | rfl
    · exact h1.memoria q hq
    · rfl
  · refine ⟨a, rfl, hsize, fun k hk hs => hf k hk fun q hq hqk hm => ?_⟩
    -- a modified page that is not the victim is still there
    obtain ⟨j, hj⟩ := List.mem_iff_getElem?.mp hq
    by_cases hij : i = j
    · rw [← hij, hr] at hj
      exact (Option.some.inj hj).symm
    · refine absurd ⟨q, List.mem_of_getElem? (i := j) ?_, hqk, hm⟩ hs
      rw [List.getElem?_set, if_neg hij, hj]

/-- With the pages of a process in all its frames there is a victim. -/
theorem exists_victima (ha : c.algoritmoReemplazo ≠ .otro)
    (hle : c.marcosPorProceso ≤ v.residentes.length) (hmano : v.puntero < c.marcosPorProceso) :
    ∃ l i r, v.victima c = some (l, i) ∧ l[i]? = some r := by
  have hlleno : bitsDe.Lleno c.marcosPorProceso v.residentes := fun i hi => by
    simp [bitsDe, List.getElem?_eq_getElem (hi.trans_le hle)]
  have hsome : (v.victima c).isSome := by
    unfold Proceso.victima
    rcases hal : c.algoritmoReemplazo
    · exact Reloj.clock_isSome bitsDe_legal hlleno hmano
    · exact Reloj.clockM_isSome bitsDe_legal hlleno hmano
    · exact absurd hal ha
  obtain ⟨⟨l, i⟩, hv⟩ := Option.isSome_iff_exists.mp hsome
  obtain ⟨b, hb⟩ := victima_leer hv
  obtain ⟨r, hr, -⟩ := Option.map_eq_some_iff.mp hb
  exact ⟨l, i, r, hv, hr⟩

/-- **A page that is brought** has what the array has. -/
theorem traer (h : Guarda c x v) (hm : 1 ≤ c.marcosPorProceso) (ha : c.algoritmoReemplazo ≠ .otro)
    (hA : Acotado c v.residentes.length v.puntero) (hp : p < x.paginas c)
    (hs : v.EnSuLugar c (.buscarMarco p)) :
    ∃ v' r, v.traer c p = some v' ∧ Guarda c x v' ∧ v'.residente p = some r ∧ r.bytes = x.pagina c p := by
  have hres : ∀ {w : Proceso} {i : ℕ} {r : Residente}, Guarda c x w → w.residentes[i]? = some r →
      r.numeroPagina = p → ∃ r, w.residente p = some r ∧ r.bytes = x.pagina c p := fun {w i r} hw hr hrp =>
    ⟨r, residente_eq hw.distintas hr hrp, hrp ▸ hw.memoria r (List.mem_of_getElem? hr)⟩
  unfold Proceso.traer
  rcases hno : v.residente p with _ | r
  · have hc : ∃ v', v.cargar c p = some v' ∧ Guarda c x v' := by
      unfold Proceso.cargar
      by_cases hl : v.residentes.length < c.marcosPorProceso
      · rw [if_pos hl]
        exact h.asignar hp hno
      · rw [if_neg hl]
        obtain ⟨l, i, r, hvic, hr⟩ := exists_victima ha (not_lt.mp hl) (hA.mano hm)
        exact h.reemplazar hp hno hvic hr (hs hno (not_lt.mp hl) l i r hvic hr)
    obtain ⟨v', hv', hg⟩ := hc
    obtain ⟨i, dato, hi⟩ := cargada hv'
    obtain ⟨r, hr, hb⟩ := hres hg hi rfl
    exact ⟨v', r, by simpa using hv', hg, hr, hb⟩
  · obtain ⟨⟨i, hi⟩, hrp⟩ := residente_mem hno
    obtain ⟨r', hr', hb⟩ := hres h hi hrp
    exact ⟨v, r', by simp, h, hr', hb⟩

/-! ### The requests -/

/-- A word written to a page in memory. -/
theorem escribir (h : Guarda c x v) (hd : d + 4 ≤ c.tamPagina) (hr : v.residente p = some r) (dato : ℕ) :
    Guarda c (x.paso c (.escribir p d dato)) (v.conResidente p (escrito d dato)) := by
  obtain ⟨⟨i, hi⟩, hrp⟩ := residente_mem hr
  have hmem : ∀ q ∈ (v.conResidente p (escrito d dato)).residentes, ∃ q' ∈ v.residentes,
      q.numeroPagina = q'.numeroPagina ∧
        q.bytes = if q'.numeroPagina = p then (escrito d dato q').bytes else q'.bytes := fun q hq => by
    obtain ⟨q', hq', rfl⟩ := List.mem_map.mp hq
    refine ⟨q', hq', ?_⟩
    split_ifs <;> exact ⟨rfl, rfl⟩
  constructor
  · exact h.limite
  · exact h.entradas
  · intro q hq
    obtain ⟨q', hq', he, -⟩ := hmem q hq
    exact he ▸ h.rango q' hq'
  · have h1 : (v.conResidente p (escrito d dato)).residentes.map (·.numeroPagina) =
        v.residentes.map (·.numeroPagina) := by
      rw [Proceso.conResidente, List.map_map]
      refine List.map_congr_left fun q _ => ?_
      simp only [Function.comp_apply]
      split_ifs <;> rfl
    exact h1 ▸ h.distintas
  · intro q hq
    obtain ⟨q', hq', he, hb⟩ := hmem q hq
    rw [hb, he]
    split_ifs with hqp
    · rw [hqp, pagina_escribir hd, escrito, h.memoria q' hq', hqp]
    · rw [pagina_escribir_of_ne hd dato hqp, h.memoria q' hq']
  · obtain ⟨a, ha, hsize, hf⟩ := h.archivo
    refine ⟨a, ha, hsize, fun k hk hs => ?_⟩
    -- the page that is written is modified now
    have hkp : k ≠ p := by
      rintro rfl
      refine hs ⟨_, List.mem_map_of_mem (List.mem_of_getElem? hi), ?_⟩
      rw [if_pos hrp]
      exact ⟨hrp, rfl⟩
    unfold EnArchivo
    rw [pagina_escribir_of_ne hd dato hkp]
    refine hf k hk ?_
    rintro ⟨q, hq, hqk, hm⟩
    refine hs ⟨_, List.mem_map_of_mem hq, ?_⟩
    rw [if_neg (hqk ▸ hkp)]
    exact ⟨hqk, hm⟩

/-- The bit of use of a page. -/
theorem usar (h : Guarda c x v) (p : ℕ) : Guarda c x (v.conResidente p fun r => { r with uso := true }) := by
  refine h.congr ?_ v.puntero
  rw [List.map_map]
  refine List.map_congr_left fun q _ => ?_
  simp only [Function.comp_apply]
  split_ifs <;> rfl

/-- The pages go to the file one by one. -/
theorem suspenderPaginas : ∀ {l : List Residente} {v : Proceso}, v.residentes = l → Guarda c x v →
    (∀ r ∈ l, r.numeroPagina < c.entradasPorTabla) →
    ∃ v', Proceso.suspenderPaginas c l v = some v' ∧ Guarda c x v'
  | [], v, _, h, _ => ⟨v, rfl, h⟩
  | r :: l, v, hl, h, he => by
    have hmem : ∀ {q}, q ∈ l → q ∈ v.residentes := fun hq => hl ▸ List.mem_cons_of_mem r hq
    obtain ⟨a, h1, hsize, hf⟩ := h.escribirSwap (r := r) (hl ▸ List.mem_cons_self) (he r List.mem_cons_self)
    have h2 : Guarda c x { v.conResidentes l with archivo := some a } := by
      refine ⟨h.limite, h.entradas, fun q hq => h.rango q (hmem hq), ?_, fun q hq => h.memoria q (hmem hq),
        a, rfl, hsize, fun p hp hs => hf p hp fun q hq hqp hm => ?_⟩
      · have h3 := h.distintas
        rw [hl] at h3
        exact (List.nodup_cons.mp h3).2
      · rw [hl] at hq
        exact (List.mem_cons.mp hq).resolve_right fun hq => hs ⟨q, hq, hqp, hm⟩
    obtain ⟨v', h3, h4⟩ := suspenderPaginas (v := { v.conResidentes l with archivo := some a }) rfl h2
      fun q hq => he q (List.mem_cons_of_mem r hq)
    refine ⟨v', ?_, h4⟩
    rw [Proceso.suspenderPaginas, h1 (v.conResidentes l) rfl]
    exact h3

/-- **A request of the process**: it is answered, with the four bytes of the array when it is
a read, and the process holds the array that the request leaves. -/
theorem ejecutar {e : Pedido} (h : Guarda c x v) (hm : 1 ≤ c.marcosPorProceso)
    (ha : c.algoritmoReemplazo ≠ .otro) (hA : Acotado c v.residentes.length v.puntero)
    (hi : ∀ tam, e ≠ .iniciar tam) (hf : e ≠ .finalizar) (hd : e.Dentro c x) (hs : v.EnSuLugar c e) :
    ∃ n v', v.ejecutar c (e.operacion 0 0) = some (n, v') ∧ Guarda c (x.paso c e) v' ∧
      ∀ p d, e = .leer p d → n = x.leer c p d := by
  cases e with
  | iniciar tam => exact absurd rfl (hi tam)
  | finalizar => exact absurd rfl hf
  | escribir p d dato =>
    obtain ⟨hp, hd⟩ := hd
    obtain ⟨v', r, h1, h2, h3, -⟩ := h.traer hm ha hA hp hs
    refine ⟨0, _, ?_, h2.escribir hd h3 dato, fun _ _ he => by cases he⟩
    simp only [Pedido.operacion, Proceso.ejecutar, Proceso.escribir, h.entradas p hp, h1,
      if_pos (show d < c.tamPagina by omega), if_true, Option.bind_eq_bind, Option.bind_some]
    rfl
  | leer p d =>
    obtain ⟨hp, hd⟩ := hd
    obtain ⟨v', r, h1, h2, h3, hb⟩ := h.traer hm ha hA hp hs
    refine ⟨x.leer c p d, _, ?_, h2.usar p, fun _ _ he => by cases he; rfl⟩
    simp only [Pedido.operacion, Proceso.ejecutar, Proceso.leer, h.entradas p hp, h1, h3, hb, leer_pagina hd,
      if_neg (show ¬ c.tamPagina ≤ d by omega), if_true, Option.bind_eq_bind, Option.bind_some]
  | buscarMarco p =>
    obtain ⟨v', r, h1, h2, -⟩ := h.traer hm ha hA hd hs
    refine ⟨0, v', ?_, h2, fun _ _ he => by cases he⟩
    simp only [Pedido.operacion, Proceso.ejecutar, Proceso.buscarMarco, h.entradas p hd, h1, if_true,
      Option.bind_eq_bind, Option.bind_some, Option.map_some]
  | suspender =>
    obtain ⟨v', h1, h2⟩ := suspenderPaginas (v := { v with puntero := 0 }) rfl
      (h.congr (l := v.residentes) rfl 0) hs
    refine ⟨1, v', ?_, h2, fun _ _ he => by cases he⟩
    simp only [Pedido.operacion, Proceso.ejecutar, Proceso.suspender, h1, Option.map_some]

end Guarda

/-! ### A new process -/

/-- The pages and the tables that a creation counts. -/
def cuenta (c : ConfigMemoria) (tam : ℕ) : Option (ℕ × ℕ) := do
  let paginas ← ceilFloat tam c.tamPagina
  let tablas ← ceilFloat paginas c.entradasPorTabla
  some (paginas, tablas)

/-- The file of a process has a size, and each of its pages an entry. -/
structure Cubre (c : ConfigMemoria) (tam : ℕ) : Prop where
  archivo : paginasDeTamano c tam * c.tamPagina < 2 ^ 31
  entradas : ∃ y ∈ cuenta c tam, ∀ p < paginasDeTamano c tam,
    numeroDeTabla c p < y.2 ∧ numeroDePagina c p < y.1

/-- **A new process** has the array of zeros. -/
theorem guarda_nuevo {tam : ℕ} (h : Cubre c tam) (hv : Proceso.nuevo c tam = some v) :
    Guarda c ⟨tam, fun _ => 0⟩ v := by
  obtain ⟨hlim, ⟨m, k⟩, hc, hent⟩ := h
  obtain ⟨paginas, hpag, hc⟩ := Option.bind_eq_some_iff.mp hc
  obtain ⟨tablas, htab, hc⟩ := Option.bind_eq_some_iff.mp hc
  obtain ⟨rfl, rfl⟩ := Prod.mk.inj (Option.some.inj hc)
  have hle := le_paginasDeTamano c tam
  have hpos : paginasDeTamano c tam ≤ paginasDeTamano c tam * c.tamPagina :=
    Nat.le_mul_of_pos_right _ c.tamPagina_pos
  rw [Proceso.nuevo, hpag, Option.bind_eq_bind, Option.bind_some, htab, Option.bind_eq_bind, Option.bind_some,
    archivoNuevo_eq (by omega), if_pos (by omega), toInt_of_lt hlim] at hv
  obtain rfl := Option.some.inj hv
  refine ⟨hlim, fun p hp => ?_, fun r hr => absurd hr List.not_mem_nil, List.nodup_nil,
    fun r hr => absurd hr List.not_mem_nil, _, rfl, Int.toNat_natCast _, fun p hp _ => rfl⟩
  obtain ⟨h1, h2⟩ := hent p hp
  have h3 : ¬ tablas < 1 := by omega
  have h4 : vueltas paginas = paginas := if_neg (by omega)
  simp only [Proceso.buscar, paginasPorTabla, if_neg h3, List.map_replicate, List.getElem?_replicate_of_lt h1,
    h4, Option.join_some, Option.map_some, decide_eq_true h2]

end Memoria
end Kiss
