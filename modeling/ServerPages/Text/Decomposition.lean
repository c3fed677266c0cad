import ServerPages.Text.Basic

/-!
# Decompositions

What the letters, digits and marks of Unicode 14 decompose into when differences of form do not
count, and which pairs of characters make one.  Hangul syllables are not listed; they follow a
rule.
-/

namespace ServerPages

namespace Text

/-- The runs of characters that stand for one other character each: the first and the last of
the run, and what the first stands for; the others follow in order. -/
def variantRuns : List (Nat × Nat × Nat) :=
  [(0x1D33, 0x1D3A, 0x47), (0x1DAE, 0x1DB1, 0x272), (0x2096, 0x2099, 0x6B),
   (0x2135, 0x2138, 0x5D0), (0x313A, 0x313F, 0x11B0), (0x3145, 0x314E, 0x1109),
   (0x314F, 0x3163, 0x1161), (0x3178, 0x317C, 0x112B), (0xFF10, 0xFF19, 0x30),
   (0xFF21, 0xFF3A, 0x41), (0xFF41, 0xFF5A, 0x61), (0xFF85, 0xFF8A, 0x30CA),
   (0xFF8F, 0xFF93, 0x30DE), (0xFF96, 0xFF9B, 0x30E8), (0xFFAA, 0xFFAF, 0x11B0),
   (0xFFB5, 0xFFBE, 0x1109), (0xFFC2, 0xFFC7, 0x1161), (0xFFCA, 0xFFCF, 0x1167),
   (0xFFD2, 0xFFD7, 0x116D), (0x1D400, 0x1D419, 0x41), (0x1D41A, 0x1D433, 0x61),
   (0x1D434, 0x1D44D, 0x41), (0x1D44E, 0x1D454, 0x61), (0x1D456, 0x1D467, 0x69),
   (0x1D468, 0x1D481, 0x41), (0x1D482, 0x1D49B, 0x61), (0x1D4A9, 0x1D4AC, 0x4E),
   (0x1D4AE, 0x1D4B5, 0x53), (0x1D4B6, 0x1D4B9, 0x61), (0x1D4BD, 0x1D4C3, 0x68),
   (0x1D4C5, 0x1D4CF, 0x70), (0x1D4D0, 0x1D4E9, 0x41), (0x1D4EA, 0x1D503, 0x61),
   (0x1D507, 0x1D50A, 0x44), (0x1D50D, 0x1D514, 0x4A), (0x1D516, 0x1D51C, 0x53),
   (0x1D51E, 0x1D537, 0x61), (0x1D53B, 0x1D53E, 0x44), (0x1D540, 0x1D544, 0x49),
   (0x1D54A, 0x1D550, 0x53), (0x1D552, 0x1D56B, 0x61), (0x1D56C, 0x1D585, 0x41),
   (0x1D586, 0x1D59F, 0x61), (0x1D5A0, 0x1D5B9, 0x41), (0x1D5BA, 0x1D5D3, 0x61),
   (0x1D5D4, 0x1D5ED, 0x41), (0x1D5EE, 0x1D607, 0x61), (0x1D608, 0x1D621, 0x41),
   (0x1D622, 0x1D63B, 0x61), (0x1D63C, 0x1D655, 0x41), (0x1D656, 0x1D66F, 0x61),
   (0x1D670, 0x1D689, 0x41), (0x1D68A, 0x1D6A3, 0x61), (0x1D6A8, 0x1D6B8, 0x391),
   (0x1D6BA, 0x1D6C0, 0x3A3), (0x1D6C2, 0x1D6DA, 0x3B1), (0x1D6E2, 0x1D6F2, 0x391),
   (0x1D6F4, 0x1D6FA, 0x3A3), (0x1D6FC, 0x1D714, 0x3B1), (0x1D71C, 0x1D72C, 0x391),
   (0x1D72E, 0x1D734, 0x3A3), (0x1D736, 0x1D74E, 0x3B1), (0x1D756, 0x1D766, 0x391),
   (0x1D768, 0x1D76E, 0x3A3), (0x1D770, 0x1D788, 0x3B1), (0x1D790, 0x1D7A0, 0x391),
   (0x1D7A2, 0x1D7A8, 0x3A3), (0x1D7AA, 0x1D7C2, 0x3B1), (0x1D7CE, 0x1D7D7, 0x30),
   (0x1D7D8, 0x1D7E1, 0x30), (0x1D7E2, 0x1D7EB, 0x30), (0x1D7EC, 0x1D7F5, 0x30),
   (0x1D7F6, 0x1D7FF, 0x30), (0x1EE0A, 0x1EE0D, 0x643), (0x1EE2A, 0x1EE2D, 0x643),
   (0x1FBF0, 0x1FBF9, 0x30)]

/-- Further characters that stand for one other character each, in pairs. -/
def variantPairs : List String :=
  ["ªa µμ ºo ſs ʰh ʱɦ ʲj ʳr ʴɹ ʵɻ ʶʁ ʷw ʸy ˠɣ ˡl ˢs ˣx ˤʕ ̀̀ ́́ ̓̓ ʹʹ ·· ϐβ ϑθ ϒΥ ϕφ ϖπ ϰκ",
   "ϱρ ϲς ϴΘ ϵε ϹΣ ჼნ ᴬA ᴭÆ ᴮB ᴰD ᴱE ᴲƎ ᴼO ᴽȢ ᴾP ᴿR ᵀT ᵁU ᵂW ᵃa ᵄɐ ᵅɑ ᵆᴂ ᵇb ᵈd ᵉe ᵊə ᵋɛ ᵌɜ",
   "ᵍg ᵏk ᵐm ᵑŋ ᵒo ᵓɔ ᵔᴖ ᵕᴗ ᵖp ᵗt ᵘu ᵙᴝ ᵚɯ ᵛv ᵜᴥ ᵝβ ᵞγ ᵟδ ᵠφ ᵡχ ᵢi ᵣr ᵤu ᵥv ᵦβ ᵧγ ᵨρ ᵩφ ᵪχ",
   "ᵸн ᶛɒ ᶜc ᶝɕ ᶞð ᶟɜ ᶠf ᶡɟ ᶢɡ ᶣɥ ᶤɨ ᶥɩ ᶦɪ ᶧᵻ ᶨʝ ᶩɭ ᶪᶅ ᶫʟ ᶬɱ ᶭɰ ᶲɸ ᶳʂ ᶴʃ ᶵƫ ᶶʉ ᶷʊ ᶸᴜ ᶹʋ ᶺʌ",
   "ᶻz ᶼʐ ᶽʑ ᶾʒ ᶿθ ιι ⁱi ⁿn ₐa ₑe ₒo ₓx ₔə ₕh ₚp ₛs ₜt ℂC ℇƐ ℊg ℋH ℌH ℍH ℎh ℏħ ℐI ℑI ℒL ℓl",
   "ℕN ℙP ℚQ ℛR ℜR ℝR ℤZ ΩΩ ℨZ KK ℬB ℭC ℯe ℰE ℱF ℳM ℴo ℹi ℼπ ℽγ ℾΓ ℿΠ ⅅD ⅆd ⅇe ⅈi ⅉj ⅠI ⅤV",
   "ⅩX ⅬL ⅭC ⅮD ⅯM ⅰi ⅴv ⅹx ⅼl ⅽc ⅾd ⅿm ⱼj ⱽV ⵯⵡ 〸十 〹卄 〺卅 ㄱᄀ ㄲᄁ ㄳᆪ ㄴᄂ ㄵᆬ ㄶᆭ ㄷᄃ ㄸᄄ ㄹᄅ ㅀᄚ ㅁᄆ",
   "ㅂᄇ ㅃᄈ ㅄᄡ ㅤᅠ ㅥᄔ ㅦᄕ ㅧᇇ ㅨᇈ ㅩᇌ ㅪᇎ ㅫᇓ ㅬᇗ ㅭᇙ ㅮᄜ ㅯᇝ ㅰᇟ ㅱᄝ ㅲᄞ ㅳᄠ ㅴᄢ ㅵᄣ ㅶᄧ ㅷᄩ ㅽᄲ ㅾᄶ ㅿᅀ ㆀᅇ ㆁᅌ ㆂᇱ",
   "ㆃᇲ ㆄᅗ ㆅᅘ ㆆᅙ ㆇᆄ ㆈᆅ ㆉᆈ ㆊᆑ ㆋᆒ ㆌᆔ ㆍᆞ ㆎᆡ ꚜъ ꚝь ꝰꝯ ꟲC ꟳF ꟴQ ꟸĦ ꟹœ ꭜꜧ ꭝꬷ ꭞɫ ꭟꭒ ꭩʍ 豈豈 更更 車車 賈賈",
   "滑滑 串串 句句 龜龜 龜龜 契契 金金 喇喇 奈奈 懶懶 癩癩 羅羅 蘿蘿 螺螺 裸裸 邏邏 樂樂 洛洛 烙烙 珞珞 落落 酪酪 駱駱 亂亂 卵卵 欄欄 爛爛 蘭蘭 鸞鸞",
   "嵐嵐 濫濫 藍藍 襤襤 拉拉 臘臘 蠟蠟 廊廊 朗朗 浪浪 狼狼 郎郎 來來 冷冷 勞勞 擄擄 櫓櫓 爐爐 盧盧 老老 蘆蘆 虜虜 路路 露露 魯魯 鷺鷺 碌碌 祿祿 綠綠",
   "菉菉 錄錄 鹿鹿 論論 壟壟 弄弄 籠籠 聾聾 牢牢 磊磊 賂賂 雷雷 壘壘 屢屢 樓樓 淚淚 漏漏 累累 縷縷 陋陋 勒勒 肋肋 凜凜 凌凌 稜稜 綾綾 菱菱 陵陵 讀讀",
   "拏拏 樂樂 諾諾 丹丹 寧寧 怒怒 率率 異異 北北 磻磻 便便 復復 不不 泌泌 數數 索索 參參 塞塞 省省 葉葉 說說 殺殺 辰辰 沈沈 拾拾 若若 掠掠 略略 亮亮",
   "兩兩 凉凉 梁梁 糧糧 良良 諒諒 量量 勵勵 呂呂 女女 廬廬 旅旅 濾濾 礪礪 閭閭 驪驪 麗麗 黎黎 力力 曆曆 歷歷 轢轢 年年 憐憐 戀戀 撚撚 漣漣 煉煉 璉璉",
   "秊秊 練練 聯聯 輦輦 蓮蓮 連連 鍊鍊 列列 劣劣 咽咽 烈烈 裂裂 說說 廉廉 念念 捻捻 殮殮 簾簾 獵獵 令令 囹囹 寧寧 嶺嶺 怜怜 玲玲 瑩瑩 羚羚 聆聆 鈴鈴",
   "零零 靈靈 領領 例例 禮禮 醴醴 隸隸 惡惡 了了 僚僚 寮寮 尿尿 料料 樂樂 燎燎 療療 蓼蓼 遼遼 龍龍 暈暈 阮阮 劉劉 杻杻 柳柳 流流 溜溜 琉琉 留留 硫硫",
   "紐紐 類類 六六 戮戮 陸陸 倫倫 崙崙 淪淪 輪輪 律律 慄慄 栗栗 率率 隆隆 利利 吏吏 履履 易易 李李 梨梨 泥泥 理理 痢痢 罹罹 裏裏 裡裡 里里 離離 匿匿",
   "溺溺 吝吝 燐燐 璘璘 藺藺 隣隣 鱗鱗 麟麟 林林 淋淋 臨臨 立立 笠笠 粒粒 狀狀 炙炙 識識 什什 茶茶 刺刺 切切 度度 拓拓 糖糖 宅宅 洞洞 暴暴 輻輻 行行",
   "降降 見見 廓廓 兀兀 嗀嗀 塚塚 晴晴 凞凞 猪猪 益益 礼礼 神神 祥祥 福福 靖靖 精精 羽羽 蘒蘒 諸諸 逸逸 都都 飯飯 飼飼 館館 鶴鶴 郞郞 隷隷 侮侮 僧僧",
   "免免 勉勉 勤勤 卑卑 喝喝 嘆嘆 器器 塀塀 墨墨 層層 屮屮 悔悔 慨慨 憎憎 懲懲 敏敏 既既 暑暑 梅梅 海海 渚渚 漢漢 煮煮 爫爫 琢琢 碑碑 社社 祉祉 祈祈",
   "祐祐 祖祖 祝祝 禍禍 禎禎 穀穀 突突 節節 練練 縉縉 繁繁 署署 者者 臭臭 艹艹 艹艹 著著 褐褐 視視 謁謁 謹謹 賓賓 贈贈 辶辶 逸逸 難難 響響 頻頻 恵恵",
   "𤋮𤋮 舘舘 並並 况况 全全 侀侀 充充 冀冀 勇勇 勺勺 喝喝 啕啕 喙喙 嗢嗢 塚塚 墳墳 奄奄 奔奔 婢婢 嬨嬨 廒廒 廙廙 彩彩 徭徭 惘惘 慎慎 愈愈 憎憎 慠慠",
   "懲懲 戴戴 揄揄 搜搜 摒摒 敖敖 晴晴 朗朗 望望 杖杖 歹歹 殺殺 流流 滛滛 滋滋 漢漢 瀞瀞 煮煮 瞧瞧 爵爵 犯犯 猪猪 瑱瑱 甆甆 画画 瘝瘝 瘟瘟 益益 盛盛",
   "直直 睊睊 着着 磌磌 窱窱 節節 类类 絛絛 練練 缾缾 者者 荒荒 華華 蝹蝹 襁襁 覆覆 視視 調調 諸諸 請請 謁謁 諾諾 諭諭 謹謹 變變 贈贈 輸輸 遲遲 醙醙",
   "鉶鉶 陼陼 難難 靖靖 韛韛 響響 頋頋 頻頻 鬒鬒 龜龜 𢡊𢡊 𢡄𢡄 𣏕𣏕 㮝㮝 䀘䀘 䀹䀹 𥉉𥉉 𥳐𥳐 𧻓𧻓 齃齃 龎龎 ﬠע ﬡא ﬢד ﬣה ﬤכ ﬥל ﬦם ﬧר",
   "ﬨת ﭐٱ ﭑٱ ﭒٻ ﭓٻ ﭔٻ ﭕٻ ﭖپ ﭗپ ﭘپ ﭙپ ﭚڀ ﭛڀ ﭜڀ ﭝڀ ﭞٺ ﭟٺ ﭠٺ ﭡٺ ﭢٿ ﭣٿ ﭤٿ ﭥٿ ﭦٹ ﭧٹ ﭨٹ ﭩٹ ﭪڤ ﭫڤ",
   "ﭬڤ ﭭڤ ﭮڦ ﭯڦ ﭰڦ ﭱڦ ﭲڄ ﭳڄ ﭴڄ ﭵڄ ﭶڃ ﭷڃ ﭸڃ ﭹڃ ﭺچ ﭻچ ﭼچ ﭽچ ﭾڇ ﭿڇ ﮀڇ ﮁڇ ﮂڍ ﮃڍ ﮄڌ ﮅڌ ﮆڎ ﮇڎ ﮈڈ",
   "ﮉڈ ﮊژ ﮋژ ﮌڑ ﮍڑ ﮎک ﮏک ﮐک ﮑک ﮒگ ﮓگ ﮔگ ﮕگ ﮖڳ ﮗڳ ﮘڳ ﮙڳ ﮚڱ ﮛڱ ﮜڱ ﮝڱ ﮞں ﮟں ﮠڻ ﮡڻ ﮢڻ ﮣڻ ﮦہ ﮧہ",
   "ﮨہ ﮩہ ﮪھ ﮫھ ﮬھ ﮭھ ﮮے ﮯے ﯓڭ ﯔڭ ﯕڭ ﯖڭ ﯗۇ ﯘۇ ﯙۆ ﯚۆ ﯛۈ ﯜۈ ﯞۋ ﯟۋ ﯠۅ ﯡۅ ﯢۉ ﯣۉ ﯤې ﯥې ﯦې ﯧې ﯨى",
   "ﯩى ﯼی ﯽی ﯾی ﯿی ︳_ ︴_ ﹍_ ﹎_ ﹏_ ﺀء ﺍا ﺎا ﺏب ﺐب ﺑب ﺒب ﺓة ﺔة ﺕت ﺖت ﺗت ﺘت ﺙث ﺚث ﺛث ﺜث ﺝج ﺞج",
   "ﺟج ﺠج ﺡح ﺢح ﺣح ﺤح ﺥخ ﺦخ ﺧخ ﺨخ ﺩد ﺪد ﺫذ ﺬذ ﺭر ﺮر ﺯز ﺰز ﺱس ﺲس ﺳس ﺴس ﺵش ﺶش ﺷش ﺸش ﺹص ﺺص ﺻص",
   "ﺼص ﺽض ﺾض ﺿض ﻀض ﻁط ﻂط ﻃط ﻄط ﻅظ ﻆظ ﻇظ ﻈظ ﻉع ﻊع ﻋع ﻌع ﻍغ ﻎغ ﻏغ ﻐغ ﻑف ﻒف ﻓف ﻔف ﻕق ﻖق ﻗق ﻘق",
   "ﻙك ﻚك ﻛك ﻜك ﻝل ﻞل ﻟل ﻠل ﻡم ﻢم ﻣم ﻤم ﻥن ﻦن ﻧن ﻨن ﻩه ﻪه ﻫه ﻬه ﻭو ﻮو ﻯى ﻰى ﻱي ﻲي ﻳي ﻴي ＿_",
   "ｦヲ ｧァ ｨィ ｩゥ ｪェ ｫォ ｬャ ｭュ ｮョ ｯッ ｰー ｱア ｲイ ｳウ ｴエ ｵオ ｶカ ｷキ ｸク ｹケ ｺコ ｻサ ｼシ ｽス ｾセ ｿソ ﾀタ ﾁチ ﾂツ",
   "ﾃテ ﾄト ﾋヒ ﾌフ ﾍヘ ﾎホ ﾔヤ ﾕユ ﾜワ ﾝン ﾞ゙ ﾟ゚ ﾠᅠ ﾡᄀ ﾢᄁ ﾣᆪ ﾤᄂ ﾥᆬ ﾦᆭ ﾧᄃ ﾨᄄ ﾩᄅ ﾰᄚ ﾱᄆ ﾲᄇ ﾳᄈ ﾴᄡ ￚᅳ ￛᅴ",
   "ￜᅵ 𐞁ː 𐞂ˑ 𐞃æ 𐞄ʙ 𐞅ɓ 𐞇ʣ 𐞈ꭦ 𐞉ʥ 𐞊ʤ 𐞋ɖ 𐞌ɗ 𐞍ᶑ 𐞎ɘ 𐞏ɞ 𐞐ʩ 𐞑ɤ 𐞒ɢ 𐞓ɠ 𐞔ʛ 𐞕ħ 𐞖ʜ 𐞗ɧ 𐞘ʄ 𐞙ʪ 𐞚ʫ 𐞛ɬ 𐞜𝼄 𐞝ꞎ",
   "𐞞ɮ 𐞟𝼅 𐞠ʎ 𐞡𝼆 𐞢ø 𐞣ɶ 𐞤ɷ 𐞥q 𐞦ɺ 𐞧𝼈 𐞨ɽ 𐞩ɾ 𐞪ʀ 𐞫ʨ 𐞬ʦ 𐞭ꭧ 𐞮ʧ 𐞯ʈ 𐞰ⱱ 𐞲ʏ 𐞳ʡ 𐞴ʢ 𐞵ʘ 𐞶ǀ 𐞷ǁ 𐞸ǂ 𐞹𝼊 𐞺𝼞 𝒜A",
   "𝒞C 𝒟D 𝒢G 𝒥J 𝒦K 𝒻f 𝔄A 𝔅B 𝔸A 𝔹B 𝕆O 𝚤ı 𝚥ȷ 𝚹Θ 𝛜ε 𝛝θ 𝛞κ 𝛟φ 𝛠ρ 𝛡π 𝛳Θ 𝜖ε 𝜗θ 𝜘κ 𝜙φ 𝜚ρ 𝜛π 𝜭Θ 𝝐ε",
   "𝝑θ 𝝒κ 𝝓φ 𝝔ρ 𝝕π 𝝧Θ 𝞊ε 𝞋θ 𝞌κ 𝞍φ 𝞎ρ 𝞏π 𝞡Θ 𝟄ε 𝟅θ 𝟆κ 𝟇φ 𝟈ρ 𝟉π 𝟊Ϝ 𝟋ϝ 𞸀ا 𞸁ب 𞸂ج 𞸃د 𞸅و 𞸆ز 𞸇ح 𞸈ط",
   "𞸉ي 𞸎س 𞸏ع 𞸐ف 𞸑ص 𞸒ق 𞸓ر 𞸔ش 𞸕ت 𞸖ث 𞸗خ 𞸘ذ 𞸙ض 𞸚ظ 𞸛غ 𞸜ٮ 𞸝ں 𞸞ڡ 𞸟ٯ 𞸡ب 𞸢ج 𞸤ه 𞸧ح 𞸩ي 𞸮س 𞸯ع 𞸰ف 𞸱ص 𞸲ق",
   "𞸴ش 𞸵ت 𞸶ث 𞸷خ 𞸹ض 𞸻غ 𞹂ج 𞹇ح 𞹉ي 𞹋ل 𞹍ن 𞹎س 𞹏ع 𞹑ص 𞹒ق 𞹔ش 𞹗خ 𞹙ض 𞹛غ 𞹝ں 𞹟ٯ 𞹡ب 𞹢ج 𞹤ه 𞹧ح 𞹨ط 𞹩ي 𞹪ك 𞹬م",
   "𞹭ن 𞹮س 𞹯ع 𞹰ف 𞹱ص 𞹲ق 𞹴ش 𞹵ت 𞹶ث 𞹷خ 𞹹ض 𞹺ظ 𞹻غ 𞹼ٮ 𞹾ڡ 𞺀ا 𞺁ب 𞺂ج 𞺃د 𞺄ه 𞺅و 𞺆ز 𞺇ح 𞺈ط 𞺉ي 𞺋ل 𞺌م 𞺍ن 𞺎س",
   "𞺏ع 𞺐ف 𞺑ص 𞺒ق 𞺓ر 𞺔ش 𞺕ت 𞺖ث 𞺗خ 𞺘ذ 𞺙ض 𞺚ظ 𞺛غ 𞺡ب 𞺢ج 𞺣د 𞺥و 𞺦ز 𞺧ح 𞺨ط 𞺩ي 𞺫ل 𞺬م 𞺭ن 𞺮س 𞺯ع 𞺰ف 𞺱ص 𞺲ق",
   "𞺳ر 𞺴ش 𞺵ت 𞺶ث 𞺷خ 𞺸ذ 𞺹ض 𞺺ظ 𞺻غ 丽丽 丸丸 乁乁 𠄢𠄢 你你 侮侮 侻侻 倂倂 偺偺 備備 僧僧 像像 㒞㒞 𠘺𠘺 免免 兔兔 兤兤 具具 𠔜𠔜 㒹㒹",
   "內內 再再 𠕋𠕋 冗冗 冤冤 仌仌 冬冬 况况 𩇟𩇟 凵凵 刃刃 㓟㓟 刻刻 剆剆 割割 剷剷 㔕㔕 勇勇 勉勉 勤勤 勺勺 包包 匆匆 北北 卉卉 卑卑 博博 即即 卽卽",
   "卿卿 卿卿 卿卿 𠨬𠨬 灰灰 及及 叟叟 𠭣𠭣 叫叫 叱叱 吆吆 咞咞 吸吸 呈呈 周周 咢咢 哶哶 唐唐 啓啓 啣啣 善善 善善 喙喙 喫喫 喳喳 嗂嗂 圖圖 嘆嘆 圗圗",
   "噑噑 噴噴 切切 壮壮 城城 埴埴 堍堍 型型 堲堲 報報 墬墬 𡓤𡓤 売売 壷壷 夆夆 多多 夢夢 奢奢 𡚨𡚨 𡛪𡛪 姬姬 娛娛 娧娧 姘姘 婦婦 㛮㛮 㛼㛼 嬈嬈 嬾嬾",
   "嬾嬾 𡧈𡧈 寃寃 寘寘 寧寧 寳寳 𡬘𡬘 寿寿 将将 当当 尢尢 㞁㞁 屠屠 屮屮 峀峀 岍岍 𡷤𡷤 嵃嵃 𡷦𡷦 嵮嵮 嵫嵫 嵼嵼 巡巡 巢巢 㠯㠯 巽巽 帨帨 帽帽 幩幩",
   "㡢㡢 𢆃𢆃 㡼㡼 庰庰 庳庳 庶庶 廊廊 𪎒𪎒 廾廾 𢌱𢌱 𢌱𢌱 舁舁 弢弢 弢弢 㣇㣇 𣊸𣊸 𦇚𦇚 形形 彫彫 㣣㣣 徚徚 忍忍 志志 忹忹 悁悁 㤺㤺 㤜㤜 悔悔 𢛔𢛔",
   "惇惇 慈慈 慌慌 慎慎 慌慌 慺慺 憎憎 憲憲 憤憤 憯憯 懞懞 懲懲 懶懶 成成 戛戛 扝扝 抱抱 拔拔 捐捐 𢬌𢬌 挽挽 拼拼 捨捨 掃掃 揤揤 𢯱𢯱 搢搢 揅揅 掩掩",
   "㨮㨮 摩摩 摾摾 撝撝 摷摷 㩬㩬 敏敏 敬敬 𣀊𣀊 旣旣 書書 晉晉 㬙㬙 暑暑 㬈㬈 㫤㫤 冒冒 冕冕 最最 暜暜 肭肭 䏙䏙 朗朗 望望 朡朡 杞杞 杓杓 𣏃𣏃 㭉㭉",
   "柺柺 枅枅 桒桒 梅梅 𣑭𣑭 梎梎 栟栟 椔椔 㮝㮝 楂楂 榣榣 槪槪 檨檨 𣚣𣚣 櫛櫛 㰘㰘 次次 𣢧𣢧 歔歔 㱎㱎 歲歲 殟殟 殺殺 殻殻 𣪍𣪍 𡴋𡴋 𣫺𣫺 汎汎 𣲼𣲼",
   "沿沿 泍泍 汧汧 洖洖 派派 海海 流流 浩浩 浸浸 涅涅 𣴞𣴞 洴洴 港港 湮湮 㴳㴳 滋滋 滇滇 𣻑𣻑 淹淹 潮潮 𣽞𣽞 𣾎𣾎 濆濆 瀹瀹 瀞瀞 瀛瀛 㶖㶖 灊灊 災災",
   "灷灷 炭炭 𠔥𠔥 煅煅 𤉣𤉣 熜熜 𤎫𤎫 爨爨 爵爵 牐牐 𤘈𤘈 犀犀 犕犕 𤜵𤜵 𤠔𤠔 獺獺 王王 㺬㺬 玥玥 㺸㺸 㺸㺸 瑇瑇 瑜瑜 瑱瑱 璅璅 瓊瓊 㼛㼛 甤甤 𤰶𤰶",
   "甾甾 𤲒𤲒 異異 𢆟𢆟 瘐瘐 𤾡𤾡 𤾸𤾸 𥁄𥁄 㿼㿼 䀈䀈 直直 𥃳𥃳 𥃲𥃲 𥄙𥄙 𥄳𥄳 眞眞 真真 真真 睊睊 䀹䀹 瞋瞋 䁆䁆 䂖䂖 𥐝𥐝 硎硎 碌碌 磌磌 䃣䃣 𥘦𥘦",
   "祖祖 𥚚𥚚 𥛅𥛅 福福 秫秫 䄯䄯 穀穀 穊穊 穏穏 𥥼𥥼 𥪧𥪧 𥪧𥪧 竮竮 䈂䈂 𥮫𥮫 篆篆 築築 䈧䈧 𥲀𥲀 糒糒 䊠䊠 糨糨 糣糣 紀紀 𥾆𥾆 絣絣 䌁䌁 緇緇 縂縂",
   "繅繅 䌴䌴 𦈨𦈨 𦉇𦉇 䍙䍙 𦋙𦋙 罺罺 𦌾𦌾 羕羕 翺翺 者者 𦓚𦓚 𦔣𦔣 聠聠 𦖨𦖨 聰聰 𣍟𣍟 䏕䏕 育育 脃脃 䐋䐋 脾脾 媵媵 𦞧𦞧 𦞵𦞵 𣎓𣎓 𣎜𣎜 舁舁 舄舄",
   "辞辞 䑫䑫 芑芑 芋芋 芝芝 劳劳 花花 芳芳 芽芽 苦苦 𦬼𦬼 若若 茝茝 荣荣 莭莭 茣茣 莽莽 菧菧 著著 荓荓 菊菊 菌菌 菜菜 𦰶𦰶 𦵫𦵫 𦳕𦳕 䔫䔫 蓱蓱 蓳蓳",
   "蔖蔖 𧏊𧏊 蕤蕤 𦼬𦼬 䕝䕝 䕡䕡 𦾱𦾱 𧃒𧃒 䕫䕫 虐虐 虜虜 虧虧 虩虩 蚩蚩 蚈蚈 蜎蜎 蛢蛢 蝹蝹 蜨蜨 蝫蝫 螆螆 䗗䗗 蟡蟡 蠁蠁 䗹䗹 衠衠 衣衣 𧙧𧙧 裗裗",
   "裞裞 䘵䘵 裺裺 㒻㒻 𧢮𧢮 𧥦𧥦 䚾䚾 䛇䛇 誠誠 諭諭 變變 豕豕 𧲨𧲨 貫貫 賁賁 贛贛 起起 𧼯𧼯 𠠄𠠄 跋跋 趼趼 跰跰 𠣞𠣞 軔軔 輸輸 𨗒𨗒 𨗭𨗭 邔邔 郱郱",
   "鄑鄑 𨜮𨜮 鄛鄛 鈸鈸 鋗鋗 鋘鋘 鉼鉼 鏹鏹 鐕鐕 𨯺𨯺 開開 䦕䦕 閷閷 𨵷𨵷 䧦䧦 雃雃 嶲嶲 霣霣 𩅅𩅅 𩈚𩈚 䩮䩮 䩶䩶 韠韠 𩐊𩐊 䪲䪲 𩒖𩒖 頋頋 頋頋 頩頩",
   "𩖶𩖶 飢飢 䬳䬳 餩餩 馧馧 駂駂 駾駾 䯎䯎 𩬰𩬰 鬒鬒 鱀鱀 鳽鳽 䳎䳎 䳭䳭 鵧鵧 𪃎𪃎 䳸䳸 𪄅𪄅 𪈎𪈎 𪊑𪊑 麻麻 䵖䵖 黹黹 黾黾 鼅鼅 鼏鼏 鼖鼖 鼻鼻 𪘀𪘀"]

/-- The characters that stand for several, each before what it stands for. -/
def sequences : List String :=
  ["ÀÀ ÁÁ ÂÂ ÃÃ ÄÄ ÅÅ ÇÇ ÈÈ ÉÉ ÊÊ ËË ÌÌ ÍÍ ÎÎ ÏÏ ÑÑ ÒÒ ÓÓ ÔÔ ÕÕ ÖÖ ÙÙ",
   "ÚÚ ÛÛ ÜÜ ÝÝ àà áá ââ ãã ää åå çç èè éé êê ëë ìì íí îî ïï ññ òò óó",
   "ôô õõ öö ùù úú ûû üü ýý ÿÿ ĀĀ āā ĂĂ ăă ĄĄ ąą ĆĆ ćć ĈĈ ĉĉ ĊĊ ċċ ČČ",
   "čč ĎĎ ďď ĒĒ ēē ĔĔ ĕĕ ĖĖ ėė ĘĘ ęę ĚĚ ěě ĜĜ ĝĝ ĞĞ ğğ ĠĠ ġġ ĢĢ ģģ ĤĤ",
   "ĥĥ ĨĨ ĩĩ ĪĪ īī ĬĬ ĭĭ ĮĮ įį İİ ĲIJ ĳij ĴĴ ĵĵ ĶĶ ķķ ĹĹ ĺĺ ĻĻ ļļ ĽĽ ľľ",
   "ĿL· ŀl· ŃŃ ńń ŅŅ ņņ ŇŇ ňň ŉʼn ŌŌ ōō ŎŎ ŏŏ ŐŐ őő ŔŔ ŕŕ ŖŖ ŗŗ ŘŘ řř ŚŚ",
   "śś ŜŜ ŝŝ ŞŞ şş ŠŠ šš ŢŢ ţţ ŤŤ ťť ŨŨ ũũ ŪŪ ūū ŬŬ ŭŭ ŮŮ ůů ŰŰ űű ŲŲ",
   "ųų ŴŴ ŵŵ ŶŶ ŷŷ ŸŸ ŹŹ źź ŻŻ żż ŽŽ žž ƠƠ ơơ ƯƯ ưư ǄDŽ ǅDž ǆdž ǇLJ ǈLj",
   "ǉlj ǊNJ ǋNj ǌnj ǍǍ ǎǎ ǏǏ ǐǐ ǑǑ ǒǒ ǓǓ ǔǔ ǕǕ ǖǖ ǗǗ ǘǘ ǙǙ ǚǚ ǛǛ ǜǜ",
   "ǞǞ ǟǟ ǠǠ ǡǡ ǢǢ ǣǣ ǦǦ ǧǧ ǨǨ ǩǩ ǪǪ ǫǫ ǬǬ ǭǭ ǮǮ ǯǯ ǰǰ ǱDZ ǲDz ǳdz",
   "ǴǴ ǵǵ ǸǸ ǹǹ ǺǺ ǻǻ ǼǼ ǽǽ ǾǾ ǿǿ ȀȀ ȁȁ ȂȂ ȃȃ ȄȄ ȅȅ ȆȆ ȇȇ ȈȈ ȉȉ ȊȊ",
   "ȋȋ ȌȌ ȍȍ ȎȎ ȏȏ ȐȐ ȑȑ ȒȒ ȓȓ ȔȔ ȕȕ ȖȖ ȗȗ ȘȘ șș ȚȚ țț ȞȞ ȟȟ ȦȦ ȧȧ ȨȨ",
   "ȩȩ ȪȪ ȫȫ ȬȬ ȭȭ ȮȮ ȯȯ ȰȰ ȱȱ ȲȲ ȳȳ ̈́̈́ ΆΆ ΈΈ ΉΉ ΊΊ ΌΌ ΎΎ ΏΏ ΐΐ",
   "ΪΪ ΫΫ άά έέ ήή ίί ΰΰ ϊϊ ϋϋ όό ύύ ώώ ϓΎ ϔΫ ЀЀ ЁЁ ЃЃ ЇЇ ЌЌ ЍЍ ЎЎ ЙЙ",
   "йй ѐѐ ёё ѓѓ її ќќ ѝѝ ўў ѶѶ ѷѷ ӁӁ ӂӂ ӐӐ ӑӑ ӒӒ ӓӓ ӖӖ ӗӗ ӚӚ ӛӛ ӜӜ ӝӝ",
   "ӞӞ ӟӟ ӢӢ ӣӣ ӤӤ ӥӥ ӦӦ ӧӧ ӪӪ ӫӫ ӬӬ ӭӭ ӮӮ ӯӯ ӰӰ ӱӱ ӲӲ ӳӳ ӴӴ ӵӵ ӸӸ ӹӹ",
   "ևեւ آآ أأ ؤؤ إإ ئئ ٵاٴ ٶوٴ ٷۇٴ ٸيٴ ۀۀ ۂۂ ۓۓ ऩऩ ऱऱ ऴऴ क़क़ ख़ख़ ग़ग़ ज़ज़ ड़ड़ ढ़ढ़",
   "फ़फ़ य़य़ োো ৌৌ ড়ড় ঢ়ঢ় য়য় ਲ਼ਲ਼ ਸ਼ਸ਼ ਖ਼ਖ਼ ਗ਼ਗ਼ ਜ਼ਜ਼ ਫ਼ਫ਼ ୈୈ ୋୋ ୌୌ ଡ଼ଡ଼ ଢ଼ଢ଼ ஔஔ ொொ ோோ ௌௌ",
   "ైై ೀೀ ೇೇ ೈೈ ೊೊ ೋೋ ൊൊ ോോ ൌൌ ේේ ොො ෝෝ ෞෞ ำํา ຳໍາ ໜຫນ ໝຫມ གྷགྷ ཌྷཌྷ དྷདྷ བྷབྷ",
   "ཛྷཛྷ ཀྵཀྵ ཱཱིི ཱཱུུ ྲྀྲྀ ཷྲཱྀ ླྀླྀ ཹླཱྀ ཱཱྀྀ ྒྷྒྷ ྜྷྜྷ ྡྷྡྷ ྦྷྦྷ ྫྷྫྷ ྐྵྐྵ ဦဦ ᬆᬆ ᬈᬈ ᬊᬊ ᬌᬌ ᬎᬎ",
   "ᬒᬒ ᬻᬻ ᬽᬽ ᭀᭀ ᭁᭁ ᭃᭃ ḀḀ ḁḁ ḂḂ ḃḃ ḄḄ ḅḅ ḆḆ ḇḇ ḈḈ ḉḉ ḊḊ ḋḋ ḌḌ ḍḍ ḎḎ",
   "ḏḏ ḐḐ ḑḑ ḒḒ ḓḓ ḔḔ ḕḕ ḖḖ ḗḗ ḘḘ ḙḙ ḚḚ ḛḛ ḜḜ ḝḝ ḞḞ ḟḟ ḠḠ ḡḡ ḢḢ",
   "ḣḣ ḤḤ ḥḥ ḦḦ ḧḧ ḨḨ ḩḩ ḪḪ ḫḫ ḬḬ ḭḭ ḮḮ ḯḯ ḰḰ ḱḱ ḲḲ ḳḳ ḴḴ ḵḵ ḶḶ ḷḷ",
   "ḸḸ ḹḹ ḺḺ ḻḻ ḼḼ ḽḽ ḾḾ ḿḿ ṀṀ ṁṁ ṂṂ ṃṃ ṄṄ ṅṅ ṆṆ ṇṇ ṈṈ ṉṉ ṊṊ ṋṋ ṌṌ",
   "ṍṍ ṎṎ ṏṏ ṐṐ ṑṑ ṒṒ ṓṓ ṔṔ ṕṕ ṖṖ ṗṗ ṘṘ ṙṙ ṚṚ ṛṛ ṜṜ ṝṝ ṞṞ ṟṟ ṠṠ",
   "ṡṡ ṢṢ ṣṣ ṤṤ ṥṥ ṦṦ ṧṧ ṨṨ ṩṩ ṪṪ ṫṫ ṬṬ ṭṭ ṮṮ ṯṯ ṰṰ ṱṱ ṲṲ ṳṳ ṴṴ",
   "ṵṵ ṶṶ ṷṷ ṸṸ ṹṹ ṺṺ ṻṻ ṼṼ ṽṽ ṾṾ ṿṿ ẀẀ ẁẁ ẂẂ ẃẃ ẄẄ ẅẅ ẆẆ ẇẇ ẈẈ ẉẉ",
   "ẊẊ ẋẋ ẌẌ ẍẍ ẎẎ ẏẏ ẐẐ ẑẑ ẒẒ ẓẓ ẔẔ ẕẕ ẖẖ ẗẗ ẘẘ ẙẙ ẚaʾ ẛṡ ẠẠ ạạ ẢẢ ảả",
   "ẤẤ ấấ ẦẦ ầầ ẨẨ ẩẩ ẪẪ ẫẫ ẬẬ ậậ ẮẮ ắắ ẰẰ ằằ ẲẲ ẳẳ ẴẴ",
   "ẵẵ ẶẶ ặặ ẸẸ ẹẹ ẺẺ ẻẻ ẼẼ ẽẽ ẾẾ ếế ỀỀ ềề ỂỂ ểể ỄỄ ễễ ỆỆ ệệ",
   "ỈỈ ỉỉ ỊỊ ịị ỌỌ ọọ ỎỎ ỏỏ ỐỐ ốố ỒỒ ồồ ỔỔ ổổ ỖỖ ỗỗ ỘỘ ộộ ỚỚ",
   "ớớ ỜỜ ờờ ỞỞ ởở ỠỠ ỡỡ ỢỢ ợợ ỤỤ ụụ ỦỦ ủủ ỨỨ ứứ ỪỪ ừừ ỬỬ",
   "ửử ỮỮ ữữ ỰỰ ựự ỲỲ ỳỳ ỴỴ ỵỵ ỶỶ ỷỷ ỸỸ ỹỹ ἀἀ ἁἁ ἂἂ ἃἃ ἄἄ ἅἅ",
   "ἆἆ ἇἇ ἈἈ ἉἉ ἊἊ ἋἋ ἌἌ ἍἍ ἎἎ ἏἏ ἐἐ ἑἑ ἒἒ ἓἓ ἔἔ ἕἕ ἘἘ ἙἙ ἚἚ",
   "ἛἛ ἜἜ ἝἝ ἠἠ ἡἡ ἢἢ ἣἣ ἤἤ ἥἥ ἦἦ ἧἧ ἨἨ ἩἩ ἪἪ ἫἫ ἬἬ ἭἭ ἮἮ",
   "ἯἯ ἰἰ ἱἱ ἲἲ ἳἳ ἴἴ ἵἵ ἶἶ ἷἷ ἸἸ ἹἹ ἺἺ ἻἻ ἼἼ ἽἽ ἾἾ ἿἿ ὀὀ ὁὁ",
   "ὂὂ ὃὃ ὄὄ ὅὅ ὈὈ ὉὉ ὊὊ ὋὋ ὌὌ ὍὍ ὐὐ ὑὑ ὒὒ ὓὓ ὔὔ ὕὕ ὖὖ ὗὗ",
   "ὙὙ ὛὛ ὝὝ ὟὟ ὠὠ ὡὡ ὢὢ ὣὣ ὤὤ ὥὥ ὦὦ ὧὧ ὨὨ ὩὩ ὪὪ ὫὫ ὬὬ ὭὭ",
   "ὮὮ ὯὯ ὰὰ άά ὲὲ έέ ὴὴ ήή ὶὶ ίί ὸὸ όό ὺὺ ύύ ὼὼ ώώ ᾀᾀ ᾁᾁ ᾂᾂ ᾃᾃ",
   "ᾄᾄ ᾅᾅ ᾆᾆ ᾇᾇ ᾈᾈ ᾉᾉ ᾊᾊ ᾋᾋ ᾌᾌ ᾍᾍ ᾎᾎ ᾏᾏ ᾐᾐ ᾑᾑ ᾒᾒ",
   "ᾓᾓ ᾔᾔ ᾕᾕ ᾖᾖ ᾗᾗ ᾘᾘ ᾙᾙ ᾚᾚ ᾛᾛ ᾜᾜ ᾝᾝ ᾞᾞ ᾟᾟ ᾠᾠ ᾡᾡ",
   "ᾢᾢ ᾣᾣ ᾤᾤ ᾥᾥ ᾦᾦ ᾧᾧ ᾨᾨ ᾩᾩ ᾪᾪ ᾫᾫ ᾬᾬ ᾭᾭ ᾮᾮ ᾯᾯ ᾰᾰ",
   "ᾱᾱ ᾲᾲ ᾳᾳ ᾴᾴ ᾶᾶ ᾷᾷ ᾸᾸ ᾹᾹ ᾺᾺ ΆΆ ᾼᾼ ῂῂ ῃῃ ῄῄ ῆῆ ῇῇ ῈῈ ΈΈ ῊῊ ΉΉ",
   "ῌῌ ῐῐ ῑῑ ῒῒ ΐΐ ῖῖ ῗῗ ῘῘ ῙῙ ῚῚ ΊΊ ῠῠ ῡῡ ῢῢ ΰΰ ῤῤ ῥῥ ῦῦ ῧῧ ῨῨ",
   "ῩῩ ῪῪ ΎΎ ῬῬ ῲῲ ῳῳ ῴῴ ῶῶ ῷῷ ῸῸ ΌΌ ῺῺ ΏΏ ῼῼ ÅÅ ⅡII ⅢIII ⅣIV ⅥVI ⅦVII",
   "ⅧVIII ⅨIX ⅪXI ⅫXII ⅱii ⅲiii ⅳiv ⅵvi ⅶvii ⅷviii ⅸix ⅺxi ⅻxii がが ぎぎ ぐぐ げげ ごご ざざ じじ",
   "ずず ぜぜ ぞぞ だだ ぢぢ づづ でで どど ばば ぱぱ びび ぴぴ ぶぶ ぷぷ べべ ぺぺ ぼぼ ぽぽ ゔゔ ゞゞ ゟより ガガ",
   "ギギ ググ ゲゲ ゴゴ ザザ ジジ ズズ ゼゼ ゾゾ ダダ ヂヂ ヅヅ デデ ドド ババ パパ ビビ ピピ ブブ ププ ベベ ペペ",
   "ボボ ポポ ヴヴ ヷヷ ヸヸ ヹヹ ヺヺ ヾヾ ヿコト ﬀff ﬁfi ﬂfl ﬃffi ﬄffl ﬅst ﬆst ﬓմն ﬔմե ﬕմի ﬖվն ﬗմխ",
   "יִיִ ײַײַ שׁשׁ שׂשׂ שּׁשּׁ שּׂשּׂ אַאַ אָאָ אּאּ בּבּ גּגּ דּדּ הּהּ וּוּ זּזּ טּטּ יּיּ ךּךּ כּכּ לּלּ מּמּ",
   "נּנּ סּסּ ףּףּ פּפּ צּצּ קּקּ רּרּ שּשּ תּתּ וֹוֹ בֿבֿ כֿכֿ פֿפֿ ﭏאל ﮤۀ ﮥۀ ﮰۓ ﮱۓ ﯝۇٴ ﯪئا ﯫئا",
   "ﯬئە ﯭئە ﯮئو ﯯئو ﯰئۇ ﯱئۇ ﯲئۆ ﯳئۆ ﯴئۈ ﯵئۈ ﯶئې ﯷئې ﯸئې ﯹئى ﯺئى ﯻئى ﰀئج",
   "ﰁئح ﰂئم ﰃئى ﰄئي ﰅبج ﰆبح ﰇبخ ﰈبم ﰉبى ﰊبي ﰋتج ﰌتح ﰍتخ ﰎتم ﰏتى ﰐتي ﰑثج ﰒثم ﰓثى ﰔثي ﰕجح",
   "ﰖجم ﰗحج ﰘحم ﰙخج ﰚخح ﰛخم ﰜسج ﰝسح ﰞسخ ﰟسم ﰠصح ﰡصم ﰢضج ﰣضح ﰤضخ ﰥضم ﰦطح ﰧطم ﰨظم ﰩعج ﰪعم ﰫغج",
   "ﰬغم ﰭفج ﰮفح ﰯفخ ﰰفم ﰱفى ﰲفي ﰳقح ﰴقم ﰵقى ﰶقي ﰷكا ﰸكج ﰹكح ﰺكخ ﰻكل ﰼكم ﰽكى ﰾكي ﰿلج ﱀلح ﱁلخ",
   "ﱂلم ﱃلى ﱄلي ﱅمج ﱆمح ﱇمخ ﱈمم ﱉمى ﱊمي ﱋنج ﱌنح ﱍنخ ﱎنم ﱏنى ﱐني ﱑهج ﱒهم ﱓهى ﱔهي ﱕيج ﱖيح ﱗيخ",
   "ﱘيم ﱙيى ﱚيي ﱛذٰ ﱜرٰ ﱝىٰ ﱤئر ﱥئز ﱦئم ﱧئن ﱨئى ﱩئي ﱪبر ﱫبز ﱬبم ﱭبن ﱮبى ﱯبي ﱰتر ﱱتز",
   "ﱲتم ﱳتن ﱴتى ﱵتي ﱶثر ﱷثز ﱸثم ﱹثن ﱺثى ﱻثي ﱼفى ﱽفي ﱾقى ﱿقي ﲀكا ﲁكل ﲂكم ﲃكى ﲄكي ﲅلم ﲆلى ﲇلي",
   "ﲈما ﲉمم ﲊنر ﲋنز ﲌنم ﲍنن ﲎنى ﲏني ﲐىٰ ﲑير ﲒيز ﲓيم ﲔين ﲕيى ﲖيي ﲗئج ﲘئح ﲙئخ ﲚئم ﲛئه ﲜبج",
   "ﲝبح ﲞبخ ﲟبم ﲠبه ﲡتج ﲢتح ﲣتخ ﲤتم ﲥته ﲦثم ﲧجح ﲨجم ﲩحج ﲪحم ﲫخج ﲬخم ﲭسج ﲮسح ﲯسخ ﲰسم ﲱصح ﲲصخ",
   "ﲳصم ﲴضج ﲵضح ﲶضخ ﲷضم ﲸطح ﲹظم ﲺعج ﲻعم ﲼغج ﲽغم ﲾفج ﲿفح ﳀفخ ﳁفم ﳂقح ﳃقم ﳄكج ﳅكح ﳆكخ ﳇكل ﳈكم",
   "ﳉلج ﳊلح ﳋلخ ﳌلم ﳍله ﳎمج ﳏمح ﳐمخ ﳑمم ﳒنج ﳓنح ﳔنخ ﳕنم ﳖنه ﳗهج ﳘهم ﳙهٰ ﳚيج ﳛيح ﳜيخ ﳝيم ﳞيه",
   "ﳟئم ﳠئه ﳡبم ﳢبه ﳣتم ﳤته ﳥثم ﳦثه ﳧسم ﳨسه ﳩشم ﳪشه ﳫكل ﳬكم ﳭلم ﳮنم ﳯنه ﳰيم ﳱيه ﳲـَّ ﳳـُّ",
   "ﳴـِّ ﳵطى ﳶطي ﳷعى ﳸعي ﳹغى ﳺغي ﳻسى ﳼسي ﳽشى ﳾشي ﳿحى ﴀحي ﴁجى ﴂجي ﴃخى ﴄخي ﴅصى ﴆصي ﴇضى ﴈضي ﴉشج",
   "ﴊشح ﴋشخ ﴌشم ﴍشر ﴎسر ﴏصر ﴐضر ﴑطى ﴒطي ﴓعى ﴔعي ﴕغى ﴖغي ﴗسى ﴘسي ﴙشى ﴚشي ﴛحى ﴜحي ﴝجى ﴞجي ﴟخى",
   "ﴠخي ﴡصى ﴢصي ﴣضى ﴤضي ﴥشج ﴦشح ﴧشخ ﴨشم ﴩشر ﴪسر ﴫصر ﴬضر ﴭشج ﴮشح ﴯشخ ﴰشم ﴱسه ﴲشه ﴳطم ﴴسج ﴵسح",
   "ﴶسخ ﴷشج ﴸشح ﴹشخ ﴺطم ﴻظم ﴼاً ﴽاً ﵐتجم ﵑتحج ﵒتحج ﵓتحم ﵔتخم ﵕتمج ﵖتمح ﵗتمخ ﵘجمح ﵙجمح ﵚحمي",
   "ﵛحمى ﵜسحج ﵝسجح ﵞسجى ﵟسمح ﵠسمح ﵡسمج ﵢسمم ﵣسمم ﵤصحح ﵥصحح ﵦصمم ﵧشحم ﵨشحم ﵩشجي ﵪشمخ ﵫشمخ",
   "ﵬشمم ﵭشمم ﵮضحى ﵯضخم ﵰضخم ﵱطمح ﵲطمح ﵳطمم ﵴطمي ﵵعجم ﵶعمم ﵷعمم ﵸعمى ﵹغمم ﵺغمي ﵻغمى ﵼفخم",
   "ﵽفخم ﵾقمح ﵿقمم ﶀلحم ﶁلحي ﶂلحى ﶃلجج ﶄلجج ﶅلخم ﶆلخم ﶇلمح ﶈلمح ﶉمحج ﶊمحم ﶋمحي ﶌمجح ﶍمجم",
   "ﶎمخج ﶏمخم ﶒمجخ ﶓهمج ﶔهمم ﶕنحم ﶖنحى ﶗنجم ﶘنجم ﶙنجى ﶚنمي ﶛنمى ﶜيمم ﶝيمم ﶞبخي ﶟتجي ﶠتجى",
   "ﶡتخي ﶢتخى ﶣتمي ﶤتمى ﶥجمي ﶦجحى ﶧجمى ﶨسخى ﶩصحي ﶪشحي ﶫضحي ﶬلجي ﶭلمي ﶮيحي ﶯيجي ﶰيمي ﶱممي",
   "ﶲقمي ﶳنحي ﶴقمح ﶵلحم ﶶعمي ﶷكمي ﶸنجح ﶹمخي ﶺلجم ﶻكمم ﶼلجم ﶽنجح ﶾجحي ﶿحجي ﷀمجي ﷁفمي ﷂبحي",
   "ﷃكمم ﷄعجم ﷅصمم ﷆسخي ﷇنجي ﷰصلے ﷱقلے ﷲالله ﷳاكبر ﷴمحمد ﷵصلعم ﷶرسول ﷷعليه ﷸوسلم ﷹصلى ﹱـً",
   "ﹷـَ ﹹـُ ﹻـِ ﹽـّ ﹿـْ ﺁآ ﺂآ ﺃأ ﺄأ ﺅؤ ﺆؤ ﺇإ ﺈإ ﺉئ ﺊئ ﺋئ ﺌئ ﻵلآ ﻶلآ ﻷلأ ﻸلأ",
   "ﻹلإ ﻺلإ ﻻلا ﻼلا 𑂚𑂚 𑂜𑂜 𑂫𑂫 𑄮𑄮 𑄯𑄯 𑍋𑍋 𑍌𑍌 𑒻𑒻 𑒼𑒼 𑒾𑒾 𑖺𑖺 𑖻𑖻 𑤸𑤸"]

/-- Two characters that make one, and the one behind them. -/
def compositions : List String :=
  ["≮≮ ≠≠ ≯≯ ÀÀ ÁÁ ÂÂ ÃÃ ĀĀ ĂĂ ȦȦ ÄÄ ẢẢ ÅÅ ǍǍ ȀȀ ȂȂ ẠẠ ḀḀ ĄĄ ḂḂ ḄḄ ḆḆ",
   "ĆĆ ĈĈ ĊĊ ČČ ÇÇ ḊḊ ĎĎ ḌḌ ḐḐ ḒḒ ḎḎ ÈÈ ÉÉ ÊÊ ẼẼ ĒĒ ĔĔ ĖĖ ËË ẺẺ ĚĚ ȄȄ",
   "ȆȆ ẸẸ ȨȨ ĘĘ ḘḘ ḚḚ ḞḞ ǴǴ ĜĜ ḠḠ ĞĞ ĠĠ ǦǦ ĢĢ ĤĤ ḢḢ ḦḦ ȞȞ ḤḤ ḨḨ ḪḪ ÌÌ",
   "ÍÍ ÎÎ ĨĨ ĪĪ ĬĬ İİ ÏÏ ỈỈ ǏǏ ȈȈ ȊȊ ỊỊ ĮĮ ḬḬ ĴĴ ḰḰ ǨǨ ḲḲ ĶĶ ḴḴ ĹĹ ĽĽ",
   "ḶḶ ĻĻ ḼḼ ḺḺ ḾḾ ṀṀ ṂṂ ǸǸ ŃŃ ÑÑ ṄṄ ŇŇ ṆṆ ŅŅ ṊṊ ṈṈ ÒÒ ÓÓ ÔÔ ÕÕ ŌŌ ŎŎ",
   "ȮȮ ÖÖ ỎỎ ŐŐ ǑǑ ȌȌ ȎȎ ƠƠ ỌỌ ǪǪ ṔṔ ṖṖ ŔŔ ṘṘ ŘŘ ȐȐ ȒȒ ṚṚ ŖŖ ṞṞ ŚŚ ŜŜ",
   "ṠṠ ŠŠ ṢṢ ȘȘ ŞŞ ṪṪ ŤŤ ṬṬ ȚȚ ŢŢ ṰṰ ṮṮ ÙÙ ÚÚ ÛÛ ŨŨ ŪŪ ŬŬ ÜÜ ỦỦ ŮŮ ŰŰ",
   "ǓǓ ȔȔ ȖȖ ƯƯ ỤỤ ṲṲ ŲŲ ṶṶ ṴṴ ṼṼ ṾṾ ẀẀ ẂẂ ŴŴ ẆẆ ẄẄ ẈẈ ẊẊ ẌẌ ỲỲ ÝÝ ŶŶ",
   "ỸỸ ȲȲ ẎẎ ŸŸ ỶỶ ỴỴ ŹŹ ẐẐ ŻŻ ŽŽ ẒẒ ẔẔ àà áá ââ ãã āā ăă ȧȧ ää ảả åå",
   "ǎǎ ȁȁ ȃȃ ạạ ḁḁ ąą ḃḃ ḅḅ ḇḇ ćć ĉĉ ċċ čč çç ḋḋ ďď ḍḍ ḑḑ ḓḓ ḏḏ èè éé",
   "êê ẽẽ ēē ĕĕ ėė ëë ẻẻ ěě ȅȅ ȇȇ ẹẹ ȩȩ ęę ḙḙ ḛḛ ḟḟ ǵǵ ĝĝ ḡḡ ğğ ġġ ǧǧ",
   "ģģ ĥĥ ḣḣ ḧḧ ȟȟ ḥḥ ḩḩ ḫḫ ẖẖ ìì íí îî ĩĩ īī ĭĭ ïï ỉỉ ǐǐ ȉȉ ȋȋ ịị įį",
   "ḭḭ ĵĵ ǰǰ ḱḱ ǩǩ ḳḳ ķķ ḵḵ ĺĺ ľľ ḷḷ ļļ ḽḽ ḻḻ ḿḿ ṁṁ ṃṃ ǹǹ ńń ññ ṅṅ ňň",
   "ṇṇ ņņ ṋṋ ṉṉ òò óó ôô õõ ōō ŏŏ ȯȯ öö ỏỏ őő ǒǒ ȍȍ ȏȏ ơơ ọọ ǫǫ ṕṕ ṗṗ",
   "ŕŕ ṙṙ řř ȑȑ ȓȓ ṛṛ ŗŗ ṟṟ śś ŝŝ ṡṡ šš ṣṣ șș şş ṫṫ ẗẗ ťť ṭṭ țț ţţ ṱṱ",
   "ṯṯ ùù úú ûû ũũ ūū ŭŭ üü ủủ ůů űű ǔǔ ȕȕ ȗȗ ưư ụụ ṳṳ ųų ṷṷ ṵṵ ṽṽ ṿṿ",
   "ẁẁ ẃẃ ŵŵ ẇẇ ẅẅ ẘẘ ẉẉ ẋẋ ẍẍ ỳỳ ýý ŷŷ ỹỹ ȳȳ ẏẏ ÿÿ ỷỷ ẙẙ ỵỵ źź ẑẑ żż",
   "žž ẓẓ ẕẕ ῭῭ ΅΅ ῁῁ ẦẦ ẤẤ ẪẪ ẨẨ ǞǞ ǺǺ ǼǼ ǢǢ ḈḈ ỀỀ ẾẾ ỄỄ ỂỂ ḮḮ ỒỒ ỐỐ",
   "ỖỖ ỔỔ ṌṌ ȬȬ ṎṎ ȪȪ ǾǾ ǛǛ ǗǗ ǕǕ ǙǙ ầầ ấấ ẫẫ ẩẩ ǟǟ ǻǻ ǽǽ ǣǣ ḉḉ ềề ếế",
   "ễễ ểể ḯḯ ồồ ốố ỗỗ ổổ ṍṍ ȭȭ ṏṏ ȫȫ ǿǿ ǜǜ ǘǘ ǖǖ ǚǚ ẰẰ ẮẮ ẴẴ ẲẲ ằằ ắắ",
   "ẵẵ ẳẳ ḔḔ ḖḖ ḕḕ ḗḗ ṐṐ ṒṒ ṑṑ ṓṓ ṤṤ ṥṥ ṦṦ ṧṧ ṸṸ ṹṹ ṺṺ ṻṻ ẛẛ ỜỜ ỚỚ ỠỠ",
   "ỞỞ ỢỢ ờờ ớớ ỡỡ ởở ợợ ỪỪ ỨỨ ỮỮ ỬỬ ỰỰ ừừ ứứ ữữ ửử ựự ǮǮ ǬǬ ǭǭ ǠǠ ǡǡ",
   "ḜḜ ḝḝ ȰȰ ȱȱ ǯǯ ᾺᾺ ΆΆ ᾹᾹ ᾸᾸ ἈἈ ἉἉ ᾼᾼ ῈῈ ΈΈ ἘἘ ἙἙ ῊῊ ΉΉ ἨἨ ἩἩ ῌῌ ῚῚ",
   "ΊΊ ῙῙ ῘῘ ΪΪ ἸἸ ἹἹ ῸῸ ΌΌ ὈὈ ὉὉ ῬῬ ῪῪ ΎΎ ῩῩ ῨῨ ΫΫ ὙὙ ῺῺ ΏΏ ὨὨ ὩὩ ῼῼ",
   "ᾴᾴ ῄῄ ὰὰ άά ᾱᾱ ᾰᾰ ἀἀ ἁἁ ᾶᾶ ᾳᾳ ὲὲ έέ ἐἐ ἑἑ ὴὴ ήή ἠἠ ἡἡ ῆῆ ῃῃ ὶὶ ίί",
   "ῑῑ ῐῐ ϊϊ ἰἰ ἱἱ ῖῖ ὸὸ όό ὀὀ ὁὁ ῤῤ ῥῥ ὺὺ ύύ ῡῡ ῠῠ ϋϋ ὐὐ ὑὑ ῦῦ ὼὼ ώώ",
   "ὠὠ ὡὡ ῶῶ ῳῳ ῒῒ ΐΐ ῗῗ ῢῢ ΰΰ ῧῧ ῴῴ ϓϓ ϔϔ ЇЇ ӐӐ ӒӒ ЃЃ ЀЀ ӖӖ ЁЁ ӁӁ ӜӜ",
   "ӞӞ ЍЍ ӢӢ ЙЙ ӤӤ ЌЌ ӦӦ ӮӮ ЎЎ ӰӰ ӲӲ ӴӴ ӸӸ ӬӬ ӑӑ ӓӓ ѓѓ ѐѐ ӗӗ ёё ӂӂ ӝӝ",
   "ӟӟ ѝѝ ӣӣ йй ӥӥ ќќ ӧӧ ӯӯ ўў ӱӱ ӳӳ ӵӵ ӹӹ ӭӭ її ѶѶ ѷѷ ӚӚ ӛӛ ӪӪ ӫӫ آآ",
   "أأ إإ ؤؤ ئئ ۂۂ ۓۓ ۀۀ ऩऩ ऱऱ ऴऴ োো ৌৌ ୋୋ ୈୈ ୌୌ ஔஔ ொொ ௌௌ ோோ ైై ೀೀ ೊೊ",
   "ೇೇ ೈೈ ೋೋ ൊൊ ൌൌ ോോ ේේ ොො ෞෞ ෝෝ ဦဦ ᬆᬆ ᬈᬈ ᬊᬊ ᬌᬌ ᬎᬎ ᬒᬒ ᬻᬻ ᬽᬽ ᭀᭀ ᭁᭁ ᭃᭃ",
   "ḸḸ ḹḹ ṜṜ ṝṝ ṨṨ ṩṩ ẬẬ ẶẶ ậậ ặặ ỆỆ ệệ ỘỘ ộộ ἂἂ ἄἄ ἆἆ ᾀᾀ ἃἃ ἅἅ ἇἇ ᾁᾁ",
   "ᾂᾂ ᾃᾃ ᾄᾄ ᾅᾅ ᾆᾆ ᾇᾇ ἊἊ ἌἌ ἎἎ ᾈᾈ ἋἋ ἍἍ ἏἏ ᾉᾉ ᾊᾊ ᾋᾋ ᾌᾌ ᾍᾍ ᾎᾎ ᾏᾏ ἒἒ ἔἔ",
   "ἓἓ ἕἕ ἚἚ ἜἜ ἛἛ ἝἝ ἢἢ ἤἤ ἦἦ ᾐᾐ ἣἣ ἥἥ ἧἧ ᾑᾑ ᾒᾒ ᾓᾓ ᾔᾔ ᾕᾕ ᾖᾖ ᾗᾗ ἪἪ ἬἬ",
   "ἮἮ ᾘᾘ ἫἫ ἭἭ ἯἯ ᾙᾙ ᾚᾚ ᾛᾛ ᾜᾜ ᾝᾝ ᾞᾞ ᾟᾟ ἲἲ ἴἴ ἶἶ ἳἳ ἵἵ ἷἷ ἺἺ ἼἼ ἾἾ ἻἻ",
   "ἽἽ ἿἿ ὂὂ ὄὄ ὃὃ ὅὅ ὊὊ ὌὌ ὋὋ ὍὍ ὒὒ ὔὔ ὖὖ ὓὓ ὕὕ ὗὗ ὛὛ ὝὝ ὟὟ ὢὢ ὤὤ ὦὦ",
   "ᾠᾠ ὣὣ ὥὥ ὧὧ ᾡᾡ ᾢᾢ ᾣᾣ ᾤᾤ ᾥᾥ ᾦᾦ ᾧᾧ ὪὪ ὬὬ ὮὮ ᾨᾨ ὫὫ ὭὭ ὯὯ ᾩᾩ ᾪᾪ ᾫᾫ ᾬᾬ",
   "ᾭᾭ ᾮᾮ ᾯᾯ ᾲᾲ ῂῂ ῲῲ ᾷᾷ ῍῍ ῎῎ ῏῏ ῇῇ ῷῷ ῝῝ ῞῞ ῟῟ ↚↚ ↛↛ ↮↮ ⇍⇍ ⇏⇏ ⇎⇎ ∄∄",
   "∉∉ ∌∌ ∤∤ ∦∦ ≁≁ ≄≄ ≇≇ ≉≉ ≭≭ ≢≢ ≰≰ ≱≱ ≴≴ ≵≵ ≸≸ ≹≹ ⊀⊀ ⊁⊁ ⋠⋠ ⋡⋡ ⊄⊄ ⊅⊅",
   "⊈⊈ ⊉⊉ ⋢⋢ ⋣⋣ ⊬⊬ ⊭⊭ ⊮⊮ ⊯⊯ ⋪⋪ ⋫⋫ ⋬⋬ ⋭⋭ ゔゔ がが ぎぎ ぐぐ げげ ごご ざざ じじ ずず ぜぜ",
   "ぞぞ だだ ぢぢ づづ でで どど ばば ぱぱ びび ぴぴ ぶぶ ぷぷ べべ ぺぺ ぼぼ ぽぽ ゞゞ ヴヴ ガガ ギギ ググ ゲゲ",
   "ゴゴ ザザ ジジ ズズ ゼゼ ゾゾ ダダ ヂヂ ヅヅ デデ ドド ババ パパ ビビ ピピ ブブ ププ ベベ ペペ ボボ ポポ ヷヷ",
   "ヸヸ ヹヹ ヺヺ ヾヾ 𑂚𑂚 𑂜𑂜 𑂫𑂫 𑄮𑄮 𑄯𑄯 𑍋𑍋 𑍌𑍌 𑒼𑒼 𑒻𑒻 𑒾𑒾 𑖺𑖺 𑖻𑖻 𑤸𑤸"]

end Text

end ServerPages
