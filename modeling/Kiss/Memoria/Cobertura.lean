/-
# What the tables cover

A process of `n` pages needs `⌈n / e⌉` second-level tables of `e` entries, the last one
shorter. The module creates that many, each with `n` entries: that is right for a process
of one table, and for a larger one every table is too long (`cobertura_iff`). Where an
entry is stays through a run (`paso_dir`), and two pages never share one.

Key definitions: `FormaBien`, `Paso`, `CubreBien`.
Key theorems: `paso_dir`, `cobertura_iff`.
-/
import Mathlib.Logic.Relation
import Kiss.Memoria.Vistas
import Kiss.Memoria.Altas

namespace Kiss
namespace Memoria

variable {c : ConfigMemoria} {s s' : MemoriaGlobal} {t p n tam pid : ℕ} {fin : List ℕ} {q : ℕ × ℕ}

/-! ### Entries through a run -/

/-- One step of a run. -/
def Paso (c : ConfigMemoria) (x y : MemoriaGlobal × List ℕ) : Prop :=
  ∃ o n, Viva x.1 x.2 o ∧ ejecutar c x.1 o = some (n, y.1) ∧ Numerable y.1 ∧ y.2 = o.finaliza ++ x.2

theorem paso_corrida {x y : MemoriaGlobal × List ℕ} (hx : Corrida c x.1 x.2) (h : Paso c x y) :
    Corrida c y.1 y.2 := by
  obtain ⟨o, n, ho, hs, hn, hfin⟩ := h
  exact hfin ▸ hx.paso o n ho hs hn

/-- The entries of a process that there is are where they were. -/
theorem ejecutar_dir {o : Operacion} (h : Invariante c s fin) (ho : Viva s fin o)
    (hs : ejecutar c s o = some (n, s')) (hn : Numerable s') (ht : t < s.listaTablasDeTablas.length) :
    dir c s' t = dir c s t := by
  cases o with
  | iniciar tam pid =>
    obtain ⟨-, v, -, hnace⟩ := iniciar_nace hs hn
    obtain ⟨tt, hc, -⟩ := hnace.crea
    exact h.marcos.dir_crear hc ht.ne
  | escribir u p d dato =>
    obtain ⟨hu, hfin⟩ := ho u rfl
    obtain ⟨v, hV⟩ := ve_de h.marcos hu
    rcases escribir_tablas hV hfin hs with ⟨-, rfl⟩ | ⟨-, s1, v1, -, h1, h2⟩
    · rfl
    · rw [← h1.ajenas.dir, dir_congr (by rw [h2.tabla]) h2.largo]
  | leer u p d => rw [(ejecutar_ajenas h.marcos ho rfl trivial hs).dir]
  | buscarMarco u p => rw [(ejecutar_ajenas h.marcos ho rfl trivial hs).dir]
  | suspender u => rw [(ejecutar_ajenas h.marcos ho rfl trivial hs).dir]
  | finalizar u => rw [(ejecutar_ajenas h.marcos ho rfl trivial hs).dir]

theorem ejecutar_length {o : Operacion} (h : Invariante c s fin) (ho : Viva s fin o)
    (hs : ejecutar c s o = some (n, s')) (hn : Numerable s') (ht : (s.tabla t).isSome) :
    (s'.tabla t).isSome := by
  cases o with
  | iniciar tam pid =>
    obtain ⟨-, v, -, hnace⟩ := iniciar_nace hs hn
    obtain ⟨tt, hc, -⟩ := hnace.crea
    obtain ⟨tt', htt'⟩ := Option.isSome_iff_exists.mp ht
    rwa [hc.tabla_vieja (List.getElem?_eq_some_iff.mp htt').1.ne]
  | escribir u p d dato =>
    obtain ⟨hu, hfin⟩ := ho u rfl
    obtain ⟨v, hV⟩ := ve_de h.marcos hu
    rcases escribir_tablas hV hfin hs with ⟨-, rfl⟩ | ⟨-, s1, v1, -, h1, h2⟩
    · exact ht
    · have h3 := congrArg Option.isSome (h1.ajenas.pcbId t)
      rw [Option.isSome_map, Option.isSome_map] at h3
      rw [h2.tabla, h3, ht]
  | _ =>
    have h2 := congrArg Option.isSome ((ejecutar_ajenas h.marcos ho rfl trivial hs).pcbId t)
    rw [Option.isSome_map, Option.isSome_map] at h2
    rw [h2, ht]

/-- **Where an entry is** stays. -/
theorem paso_dir {x y : MemoriaGlobal × List ℕ} (hx : Corrida c x.1 x.2)
    (h : Relation.ReflTransGen (Paso c) x y) (ht : (x.1.tabla t).isSome) :
    Corrida c y.1 y.2 ∧ (y.1.tabla t).isSome ∧ dir c y.1 t = dir c x.1 t := by
  induction h with
  | refl => exact ⟨hx, ht, rfl⟩
  | tail h hp ih =>
    obtain ⟨hb, htb, hd⟩ := ih
    refine ⟨paso_corrida hb hp, ?_⟩
    obtain ⟨o, n, ho, hs, hn, -⟩ := hp
    have hi := corrida_invariante hb
    obtain ⟨tt, htt⟩ := Option.isSome_iff_exists.mp htb
    exact ⟨ejecutar_length hi ho hs hn htb,
      (ejecutar_dir hi ho hs hn (List.getElem?_eq_some_iff.mp htt).1).trans hd⟩

/-! ### What a new process should get -/

/-- `⌈n / e⌉` tables, the last one with what is left. -/
def FormaBien (c : ConfigMemoria) (s s' : MemoriaGlobal) (tam : ℕ) : Prop :=
  ∃ tt, s'.listaTablasDeTablas = s.listaTablasDeTablas ++ [tt] ∧
    tt.tablasSegundoNivel.length =
      (paginasDeTamano c tam + c.entradasPorTabla - 1) / c.entradasPorTabla ∧
    ∀ i k, tt.tablasSegundoNivel[i]? = some k →
      s'.largo k = some (min c.entradasPorTabla (paginasDeTamano c tam - i * c.entradasPorTabla))

/-- The process gets its tables, and from then on each page of it, and no other, has an entry
of its own. -/
def CubreBien (c : ConfigMemoria) (s : MemoriaGlobal) (fin : List ℕ) (tam pid : ℕ) : Prop :=
  (∃ s', crearTablaPrimerNivel c s tam pid = some (s.listaTablasDeTablas.length, s') ∧
    FormaBien c s s' tam) ∧
  ∀ m s1 y, iniciarNuevoProceso c s tam pid = some (m, s1) → Numerable s1 →
    Relation.ReflTransGen (Paso c) (s1, fin) y →
      (∀ p, (∃ q, buscarPaginaEnTablas c y.1 s.listaTablasDeTablas.length p = some (some q)) ↔
        p < paginasDeTamano c tam) ∧
      ∀ t p t' p' q, buscarPaginaEnTablas c y.1 t p = some (some q) →
        buscarPaginaEnTablas c y.1 t' p' = some (some q) → t = t' ∧ p = p'

theorem buscar_iff_dir : buscarPaginaEnTablas c s t p = some (some q) ↔ dir c s t p = some q := by
  rw [← join_buscarPaginaEnTablas, Option.join_eq_some_iff]

/-- The tables of a new process, as the module creates them. -/
theorem crear_eq (hlim : tam ≤ c.tamPagina * c.entradasPorTabla * c.entradasPorTabla % 2 ^ 32)
    {paginas tablas : ℕ} (h1 : ceilFloat tam c.tamPagina = some paginas)
    (h2 : ceilFloat paginas c.entradasPorTabla = some tablas)
    (hn : s.listaTablasDeTablas.length < 2 ^ 32)
    (hp : s.listaTablasDePaginas.length + (paginasPorTabla c paginas tablas).length ≤ 2 ^ 32) :
    crearTablaPrimerNivel c s tam pid = some (s.listaTablasDeTablas.length, { s with
      listaTablasDePaginas := s.listaTablasDePaginas ++
        (paginasPorTabla c paginas tablas).map fun n => List.replicate (vueltas n) { numeroMarco := 0 }
      listaTablasDeTablas := s.listaTablasDeTablas ++
        [{ tablasSegundoNivel := List.range' s.listaTablasDePaginas.length
            (paginasPorTabla c paginas tablas).length
           pcbId := pid }] }) := by
  unfold crearTablaPrimerNivel
  simp only [toU32_tamMaximo, if_neg (not_lt.mpr hlim), h1, h2, Option.bind_eq_bind, Option.bind_some,
    foldl_crearTablaPaginas _ ([], _) hp, toU32_of_lt hn, List.nil_append]

theorem paginasDeTamano_pos (htam : 1 ≤ tam) : 1 ≤ paginasDeTamano c tam := by
  have h1 := le_paginasDeTamano c tam
  by_contra h
  rw [Nat.lt_one_iff.mp (not_le.mp h), Nat.zero_mul] at h1
  omega

/-- With one table the entries are the pages. -/
theorem dir_unica {k : ℕ} {tt : TablaPrimerNivel} (ht : s.tabla t = some tt)
    (hl : tt.tablasSegundoNivel = [k]) (hk : s.largo k = some n) (he : 0 < c.entradasPorTabla)
    (hn : n ≤ c.entradasPorTabla) : (∃ q, dir c s t p = some q) ↔ p < n := by
  have h1 : dir c s t p = [k][p / c.entradasPorTabla]?.bind fun m => (s.largo m).bind fun j =>
      if numeroDePagina c p < j then some (m, numeroDePagina c p) else none := by
    unfold dir
    rw [ht, Option.bind_some, hl, numeroDeTabla]
  rw [h1]
  by_cases hp : p < c.entradasPorTabla
  · rw [Nat.div_eq_of_lt hp, List.getElem?_cons_zero, Option.bind_some, hk, Option.bind_some, numeroDePagina,
      Nat.mod_eq_of_lt hp]
    by_cases hpn : p < n
    · simp [hpn]
    · simp [hpn]
  · have h2 : 1 ≤ p / c.entradasPorTabla := (Nat.one_le_div_iff he).mpr (not_lt.mp hp)
    rw [List.getElem?_eq_none (by simpa using h2)]
    constructor
    · rintro ⟨q, hq⟩
      cases hq
    · intro hpn
      exact absurd (hpn.trans_le hn) hp

/-- **What the tables cover.** With exact quotients, a process within the limit gets the
tables it needs exactly when one is enough for it. -/
theorem cobertura_iff (h : Corrida c s fin) (htam : 1 ≤ tam) (he : 1 ≤ c.entradasPorTabla)
    (h1 : ceilFloat tam c.tamPagina = some (paginasDeTamano c tam))
    (h2 : ceilFloat (paginasDeTamano c tam) c.entradasPorTabla =
      some ((paginasDeTamano c tam + c.entradasPorTabla - 1) / c.entradasPorTabla))
    (hp : s.listaTablasDePaginas.length +
      (paginasDeTamano c tam + c.entradasPorTabla - 1) / c.entradasPorTabla ≤ 2 ^ 32) :
    CubreBien c s fin tam pid ↔ paginasDeTamano c tam ≤ c.entradasPorTabla ∧
      tam ≤ c.tamPagina * c.entradasPorTabla * c.entradasPorTabla % 2 ^ 32 := by
  have hnum := corrida_numerable h
  have hpos := paginasDeTamano_pos (c := c) htam
  set n := paginasDeTamano c tam with hn
  set T := (n + c.entradasPorTabla - 1) / c.entradasPorTabla with hT
  have hT1 : 1 ≤ T := (Nat.one_le_div_iff he).mpr (by omega)
  have hppt : paginasPorTabla c n T = List.replicate T n := by
    unfold paginasPorTabla
    rw [if_neg (by omega)]
  have hlen : (paginasPorTabla c n T).length = T := by rw [hppt, List.length_replicate]
  have hv : vueltas n = n := by
    unfold vueltas
    rw [if_neg (by omega)]
  constructor
  · rintro ⟨⟨s', hs, tt, hl, -, hforma⟩, -⟩
    have hlim : tam ≤ c.tamPagina * c.entradasPorTabla * c.entradasPorTabla % 2 ^ 32 := by
      by_contra hg
      unfold crearTablaPrimerNivel at hs
      simp only [toU32_tamMaximo, if_pos (not_le.mp hg), Option.some.injEq, Prod.mk.injEq] at hs
      have h3 := congrArg List.length hl
      rw [← hs.2, List.length_append, List.length_singleton] at h3
      omega
    refine ⟨?_, hlim⟩
    rw [crear_eq hlim h1 h2 hnum.tablas (by rw [hlen]; exact hp), Option.some.injEq, Prod.mk.injEq] at hs
    obtain ⟨-, rfl⟩ := hs
    rw [hlen, List.append_cancel_left_eq, List.cons.injEq] at hl
    -- the first table
    have h3 := hforma 0 s.listaTablasDePaginas.length (by
      rw [← hl.1, List.getElem?_range' (by omega), Nat.mul_zero, Nat.add_zero])
    rw [MemoriaGlobal.largo, hppt, List.getElem?_append_right (le_refl _), Nat.sub_self, List.map_replicate,
      List.getElem?_replicate_of_lt hT1, Option.map_some, List.length_replicate, hv, Option.some.injEq] at h3
    omega
  · rintro ⟨hle, hlim⟩
    have hT0 : T = 1 := by
      rw [hT]
      apply Nat.div_eq_of_lt_le
      · omega
      · omega
    rw [hT0] at h2 hppt hlen hp
    refine ⟨⟨_, crear_eq hlim h1 h2 hnum.tablas (by rw [hlen]; exact hp), _, rfl, ?_, ?_⟩, ?_⟩
    · rw [hlen, List.length_range', ← hn, ← hT, hT0]
    · intro i k hk
      rw [hlen] at hk
      obtain ⟨hi, hk⟩ := List.getElem?_eq_some_iff.mp hk
      rw [List.length_range'] at hi
      rw [List.getElem_range'] at hk
      obtain rfl : i = 0 := by omega
      rw [← hk, Nat.mul_zero, Nat.add_zero, MemoriaGlobal.largo, hppt, List.getElem?_append_right (le_refl _),
        Nat.sub_self, ← hn]
      simp [hv, hle]
    · intro m s1 y hs hn1 hy
      have hc1 : Corrida c s1 fin := h.paso (.iniciar tam pid) m (fun u hu => by cases hu) hs hn1
      rw [iniciar_chico (not_lt.mpr hlim) h1 h2 hnum.tablas (by rw [hlen]; exact hp)] at hs
      obtain ⟨a, -, hs⟩ := Option.map_eq_some_iff.mp hs
      obtain ⟨-, hs⟩ := Prod.mk.inj hs
      have ht : s1.tabla s.listaTablasDeTablas.length =
          some { tablasSegundoNivel := [s.listaTablasDePaginas.length], pcbId := pid } := by
        rw [← hs, MemoriaGlobal.tabla, List.getElem?_concat_length, hlen]
        rfl
      have hk : s1.largo s.listaTablasDePaginas.length = some n := by
        rw [← hs, MemoriaGlobal.largo, hppt, List.getElem?_append_right (le_refl _), Nat.sub_self]
        simp [hv]
      obtain ⟨hcy, -, hdir⟩ := paso_dir (t := s.listaTablasDeTablas.length) hc1 hy
        (by rw [ht, Option.isSome_some])
      have hm := (corrida_invariante hcy).marcos
      refine ⟨fun p => ?_, fun t p t' p' q hq hq' =>
        hm.distintas (buscar_iff_dir.mp hq) (buscar_iff_dir.mp hq')⟩
      simp only [buscar_iff_dir, hdir]
      exact dir_unica ht rfl hk he hle

theorem cobertura_iff_dosPaginas : CubreBien (chica 2 2) sinProcesos [] 8 0 :=
  (cobertura_iff (.inicio ⟨rfl, rfl, fun _ _ => rfl⟩) (by norm_num) (by decide +kernel) (by decide +kernel)
    (by decide +kernel) (by decide +kernel)).mpr ⟨by decide +kernel, by decide +kernel⟩

/-- Three pages in tables of two entries: both tables have three. -/
theorem not_cubreBien : ¬ ∀ (c : ConfigMemoria) (s : MemoriaGlobal) (fin : List ℕ) (tam pid : ℕ),
    Corrida c s fin → 1 ≤ tam → 1 ≤ c.entradasPorTabla →
      tam ≤ c.tamPagina * c.entradasPorTabla * c.entradasPorTabla →
      ceilFloat tam c.tamPagina = some (paginasDeTamano c tam) →
      ceilFloat (paginasDeTamano c tam) c.entradasPorTabla =
        some ((paginasDeTamano c tam + c.entradasPorTabla - 1) / c.entradasPorTabla) →
      CubreBien c s fin tam pid := by
  intro h
  obtain ⟨⟨s', hs, tt, hl, -, hforma⟩, -⟩ := h (chica 2 2) sinProcesos [] 12 0
    (.inicio ⟨rfl, rfl, fun _ _ => rfl⟩) (by norm_num) (by decide +kernel) (by decide +kernel)
    (by decide +kernel) (by decide +kernel)
  obtain ⟨y, hy, h1⟩ := (Option.any_eq_true _ _).mp (show (crearTablaPrimerNivel (chica 2 2) sinProcesos
    12 0).any (fun y => decide ((y.2.tabla 0).map (·.tablasSegundoNivel) = some [0, 1] ∧
      y.2.largo 0 = some 3)) = true by decide +kernel)
  obtain ⟨h1, h2⟩ := of_decide_eq_true h1
  obtain rfl : s' = y.2 := congrArg Prod.snd (Option.some.inj (hs.symm.trans hy))
  have h3 : y.2.tabla 0 = some tt := by
    rw [MemoriaGlobal.tabla, hl]
    rfl
  rw [h3, Option.map_some, Option.some.injEq] at h1
  have h4 := hforma 0 0 (by rw [h1]; rfl)
  rw [h2, Option.some.injEq] at h4
  exact absurd h4 (by decide +kernel)

end Memoria
end Kiss
