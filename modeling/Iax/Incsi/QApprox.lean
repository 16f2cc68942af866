import Iax.Lib.Binary64
import Iax.Lib.Bisect
import Mathlib.Data.List.Chain
import Mathlib.Data.List.GetD

/-!
# The tables of the error rates

`q_approx.c` approximates `Q(sqrt(x))` by a table of 416 doubles, 16 for each exponent of `x` from
-15 on, and its inverse by a search of this table, or by a second table for small values.

* `antitone_entry`: the table is not increasing, with a tail of zeros.
* `qfuncSqrt_eq`: an argument stands for the entry of its pattern, rounded to 4 bits of mantissa.
* `qfuncinvSqrd_eq`: beyond the second table the search runs over the whole table.
* `q_search_inverts`: the search finds the first entry that is at most the rate, and the result
  stands for it.
-/

namespace Iax.Incsi

open Binary64

def qTableLen : ℕ := 26

def qTableBits : ℕ := 16

def qinvTableLen : ℕ := 691

/-- `q_sqrt_approx_uint64` -/
def qSqrtApprox : List (BitVec 64) :=
  [0x3fdfdbe45d68b162#64, 0x3fdfdac7e1cd24a4#64, 0x3fdfd9b3a68ee3c3#64, 0x3fdfd8a6fde452e1#64,
   0x3fdfd7a1509d064d#64, 0x3fdfd6a21a38572c#64, 0x3fdfd5a8e5d06607#64, 0x3fdfd4b54ba4ef22#64,
   0x3fdfd3c6ef201163#64, 0x3fdfd2dd7d395427#64, 0x3fdfd1f8ab225d1c#64, 0x3fdfd118352de063#64,
   0x3fdfd03bdde506b4#64, 0x3fdfcf636d423b39#64, 0x3fdfce8eb00a56b6#64, 0x3fdfcdbd773ea131#64,
   0x3fdfccef97a34a16#64, 0x3fdfcb5d4777c547#64, 0x3fdfc9d6a2ae4137#64, 0x3fdfc85ab3809590#64,
   0x3fdfc6e8a41e1f02#64, 0x3fdfc57fb92385ce#64, 0x3fdfc41f4d3ef02c#64, 0x3fdfc2c6cdb6398f#64,
   0x3fdfc175b7999fbe#64, 0x3fdfc02b957bb8af#64, 0x3fdfbee7fd919e22#64, 0x3fdfbdaa902571ff#64,
   0x3fdfbc72f64a9767#64, 0x3fdfbb40e0c6d1ec#64, 0x3fdfba14072655e3#64, 0x3fdfb8ec26f2f912#64,
   0x3fdfb7c9030853b3#64, 0x3fdfb59012b1276b#64, 0x3fdfb367a3491fab#64, 0x3fdfb14e593b894c#64,
   0x3fdfaf4306262fe4#64, 0x3fdfad44a106833e#64, 0x3fdfab52400f9949#64, 0x3fdfa96b13bfd40f#64,
   0x3fdfa78e62ea6d3b#64, 0x3fdfa5bb877d7fdf#64, 0x3fdfa3f1ebdb7270#64, 0x3fdfa23108a8d5a3#64,
   0x3fdfa07862f72f74#64, 0x3fdf9ec78aba95c5#64, 0x3fdf9d1e197c03b2#64, 0x3fdf9b7bb13d5c16#64,
   0x3fdf99dffb865909#64, 0x3fdf96bb6ea0f03e#64, 0x3fdf93ae3914269a#64, 0x3fdf90b66f4f7a23#64,
   0x3fdf8dd265adc8df#64, 0x3fdf8b00a564d313#64, 0x3fdf883fe3cd96f0#64, 0x3fdf858efb70b789#64,
   0x3fdf82ece66bd098#64, 0x3fdf8058b9e15cb4#64, 0x3fdf7dd1a23907d8#64, 0x3fdf7b56e004b40f#64,
   0x3fdf78e7c568e806#64, 0x3fdf7683b3ef0a72#64, 0x3fdf742a1aad7ff4#64, 0x3fdf71da74b60a1d#64,
   0x3fdf6f9447be0743#64, 0x3fdf6b229e0d6ee9#64, 0x3fdf66d1f7df5edc#64, 0x3fdf629f9dfe943d#64,
   0x3fdf5e89339bbce0#64, 0x3fdf5a8ca6a7a365#64, 0x3fdf56a8237f196e#64, 0x3fdf52da0b162e16#64,
   0x3fdf4f20eb0b32c9#64, 0x3fdf4b7b7732bf4a#64, 0x3fdf47e8844a786c#64, 0x3fdf44670394c240#64,
   0x3fdf40f5ff2e4c2a#64, 0x3fdf3d9496f93d6b#64, 0x3fdf3a41fe01d817#64, 0x3fdf36fd78467763#64,
   0x3fdf33c658d1689d#64, 0x3fdf2d7dda8a3763#64, 0x3fdf27640f9853d9#64, 0x3fdf217520b9290e#64,
   0x3fdf1badb683921f#64, 0x3fdf160ae3468774#64, 0x3fdf108a11998d97#64, 0x3fdf0b28f675464a#64,
   0x3fdf05e585fde4ae#64, 0x3fdf00bdea62cdc8#64, 0x3fdefbb07c5f17f8#64, 0x3fdef6bbbd0373c0#64,
   0x3fdef1de5086ecba#64, 0x3fdeed16f9eb47a2#64, 0x3fdee864974d287b#64, 0x3fdee3c61ec0bd77#64,
   0x3fdedf3a9ba22dac#64, 0x3fded658fff9d61e#64, 0x3fdecdb97873a1ee#64, 0x3fdec55696460285#64,
   0x3fdebd2b9f7ae57c#64, 0x3fdeb5346fa315e8#64, 0x3fdead6d5f2d43b6#64, 0x3fdea5d32fbbc47f#64,
   0x3fde9e62fc4a0bb8#64, 0x3fde971a2c4436ae#64, 0x3fde8ff668ec2f80#64, 0x3fde88f59490b582#64,
   0x3fde8215c338256b#64, 0x3fde7b5534768ca2#64, 0x3fde74b24e36b1c9#64, 0x3fde6e2b9849db43#64,
   0x3fde67bfb89b5134#64, 0x3fde5b3396fd5dfd#64, 0x3fde4f05010eca8c#64, 0x3fde432c473d1807#64,
   0x3fde37a2b9be2dd0#64, 0x3fde2c627c4af96f#64, 0x3fde2166633e07dc#64, 0x3fde16a9d7c2c0cd#64,
   0x3fde0c28c168b32f#64, 0x3fde01df73e1772c#64, 0x3fddf7caa0007fbb#64, 0x3fddede7474de7eb#64,
   0x3fdde432b1a7128a#64, 0x3fdddaaa6486a08e#64, 0x3fddd14c1ba40fd8#64, 0x3fddc815c2ac77d2#64,
   0x3fddbf056fe2df35#64, 0x3fddad4fefb626fd#64, 0x3fdd9c1f0019c30a#64, 0x3fdd8b67c07dccae#64,
   0x3fdd7b20ba364c18#64, 0x3fdd6b41a1da4190#64, 0x3fdd5bc325eb48fb#64, 0x3fdd4c9ec77bb934#64,
   0x3fdd3dceba750681#64, 0x3fdd2f4dcbc2f894#64, 0x3fdd21174c1a9b56#64, 0x3fdd1326fe656e82#64,
   0x3fdd057909147574#64, 0x3fdcf809e9ca2df5#64, 0x3fdcead66aeab5ca#64, 0x3fdcdddb9ab9a603#64,
   0x3fdcd116c3bf96a7#64, 0x3fdcb825328e1954#64, 0x3fdc9fefdd6eaf19#64, 0x3fdc88675cb86b75#64,
   0x3fdc717e49001779#64, 0x3fdc5b28e2778f54#64, 0x3fdc455ccb18c4ee#64, 0x3fdc3010cef4f4c1#64,
   0x3fdc1b3cb74e5666#64, 0x3fdc06d92608dfaa#64, 0x3fdbf2df77a07534#64, 0x3fdbdf49aa465b81#64,
   0x3fdbcc12491b5e06#64, 0x3fdbb9345ab988f4#64, 0x3fdba6ab526df4d1#64, 0x3fdb947303a571c6#64,
   0x3fdb82879728f11e#64, 0x3fdb5f897cb374c3#64, 0x3fdb3d97b25b41bc#64, 0x3fdb1c9c5e8dee60#64,
   0x3fdafc847d6cc7ee#64, 0x3fdadd3f634cc90f#64, 0x3fdabebe59d24080#64, 0x3fdaa0f45111be7e#64,
   0x3fda83d59ff8326c#64, 0x3fda6757d08215d8#64, 0x3fda4b71752e77c9#64, 0x3fda301a05be2ac8#64,
   0x3fda1549c1c5bb43#64, 0x3fd9faf997efbe07#64, 0x3fd9e123110da0a2#64, 0x3fd9c7c03e45b6ae#64,
   0x3fd9aecba9d22528#64, 0x3fd97e197538bd2b#64, 0x3fd94ee8720076b7#64, 0x3fd9211989bc1bf6#64,
   0x3fd8f491abf967a5#64, 0x3fd8c9391c4edd20#64, 0x3fd89efae61eb652#64, 0x3fd875c46cb9d6d2#64,
   0x3fd84d85112aaa1d#64, 0x3fd8262de8bd8374#64, 0x3fd7ffb180a06ab1#64, 0x3fd7da03abdbc976#64,
   0x3fd7b519598d2630#64, 0x3fd790e871c83fe0#64, 0x3fd76d67b7de67a2#64, 0x3fd74a8eb110c801#64,
   0x3fd728558ee694fc#64, 0x3fd6e5a6ae9fda10#64, 0x3fd6a527901e8244#64, 0x3fd666abad0e82f4#64,
   0x3fd62a0c3a731ff3#64, 0x3fd5ef272bab66d0#64, 0x3fd5b5de6b032cde#64, 0x3fd57e173a922689#64,
   0x3fd547b9b3df953a#64, 0x3fd512b05f5006e2#64, 0x3fd4dee7de2ed46e#64, 0x3fd4ac4ea36d9f2c#64,
   0x3fd47ad4b8221cc5#64, 0x3fd44a6b8979527c#64, 0x3fd41b05be5957ac#64, 0x3fd3ec97134c7288#64,
   0x3fd3bf143b9aa713#64, 0x3fd366a9091872c4#64, 0x3fd311796a46f065#64, 0x3fd2bf44aebaa966#64,
   0x3fd26fd26176a5da#64, 0x3fd222f0df415fd4#64, 0x3fd1d8743959c029#64, 0x3fd1903551af7282#64,
   0x3fd14a112307fdfc#64, 0x3fd105e82b1e4ca0#64, 0x3fd0c39def597e81#64, 0x3fd08318968bd8b4#64,
   0x3fd04440937dc828#64, 0x3fd007005d021183#64, 0x3fcf968862131bfb#64, 0x3fcf21f3c170658a#64,
   0x3fceb02147ce245c#64, 0x3fcdd448c9c2a1ba#64, 0x3fcd0220056b3a4e#64, 0x3fcc38e56eae6412#64,
   0x3fcb77ef90bf3e92#64, 0x3fcabea8f74ac6cf#64, 0x3fca0c8cf3850474#64, 0x3fc9612506f4a4d3#64,
   0x3fc8bc06ccf600b6#64, 0x3fc81cd2465e1d98#64, 0x3fc7833071fd2273#64, 0x3fc6eed221fe922e#64,
   0x3fc65f6f01f386de#64, 0x3fc5d4c4c41f0c93#64, 0x3fc54e966eb17e54#64, 0x3fc4ccabc330ce2e#64,
   0x3fc44ed0bb7cb20b#64, 0x3fc35e8c01966d2d#64, 0x3fc27c6d14c5e343#64, 0x3fc1a7456583fd0d#64,
   0x3fc0de0b35ad731e#64, 0x3fc01fd37fc482ad#64, 0x3fbed79a42f22526#64, 0x3fbd8279f4fdd539#64,
   0x3fbc3ef58d4e04d0#64, 0x3fbb0bdd12ba9c2b#64, 0x3fb9e81cd6b8e718#64, 0x3fb8d2b9e61e829d#64,
   0x3fb7cacf0b4ca4e2#64, 0x3fb6cf8a45ff3f41#64, 0x3fb5e02aa314ce6d#64, 0x3fb4fbfe633cd36e#64,
   0x3fb4226162fbddd6#64, 0x3fb28c80830a2f85#64, 0x3fb11a46d89647f0#64, 0x3faf9009c545e52f#64,
   0x3fad2507eeb59279#64, 0x3faaede561465f3d#64, 0x3fa8e5aa8d89649f#64, 0x3fa707f1d1914b60#64,
   0x3fa550d2c7fcb8e3#64, 0x3fa3bcd133aa0ffd#64, 0x3fa248cec71df0a9#64, 0x3fa0f1ff35250aa3#64,
   0x3f9f6bbc344b8aed#64, 0x3f9d244ccd587422#64, 0x3f9b09960d07dc90#64, 0x3f9917e11bdb4e8a#64,
   0x3f974bcf82c9d862#64, 0x3f94189e8b6e8eca#64, 0x3f915aaa8ec85208#64, 0x3f8e005f412f3b44#64,
   0x3f89f4a5c30b47d3#64, 0x3f867936ded8d40d#64, 0x3f83790df207f666#64, 0x3f80e2670599ebd9#64,
   0x3f7d4c66802a7050#64, 0x3f796f4e57e49ce7#64, 0x3f7617baee0c6dce#64, 0x3f7333141f86d9d5#64,
   0x3f70b174e365d321#64, 0x3f6d0a828e1b1ac2#64, 0x3f69459bbcd2542d#64, 0x3f66002b0ca6ac79#64,
   0x3f6328f5ec350e65#64, 0x3f5d17f62676b8fb#64, 0x3f561de1f985b5dc#64, 0x3f50d50ed9c234a2#64,
   0x3f49a5c5e03484d7#64, 0x3f438eee694f732b#64, 0x3f3ddb04e3dbbd8b#64, 0x3f36ce26cc5edf62#64,
   0x3f316ec91f788170#64, 0x3f2aab859b20ac9f#64, 0x3f2469f38ee72dcf#64, 0x3f1f44dc77557d4d#64,
   0x3f17f61b614a0b75#64, 0x3f125ef94dbadda0#64, 0x3f0c2ef3f3b84918#64, 0x3f05a0d57807bb0e#64,
   0x3f009ad7954afffd#64, 0x3ef39908c7d08a41#64, 0x3ee729df6503423b#64, 0x3edb69e4bf4598d4#64,
   0x3ed03da5007240db#64, 0x3ec34384848351ca#64, 0x3eb6df1fc94be2f6#64, 0x3eab2de835fc5610#64,
   0x3ea029963b9265a8#64, 0x3e933ca2f213383c#64, 0x3e86e9816b432baf#64, 0x3e7b4ead2a3244cf#64,
   0x3e70485dfd974cb7#64, 0x3e636dcc7f22261e#64, 0x3e5731ffcc589366#64, 0x3e4bb4a1a93aa4a5#64,
   0x3e408ddd13bd35e7#64, 0x3e27aba2eed2a17f#64, 0x3e10f30ef0092d58#64, 0x3df84ec378047dfc#64,
   0x3de173c309739787#64, 0x3dc916cbb99ca56d#64, 0x3db20d7abd11fa2b#64, 0x3d9a010d2acde1ef#64,
   0x3d82becd1664e6f3#64, 0x3d6b0c1a759f7739#64, 0x3d53870d8204e13d#64, 0x3d3c37663e8ec039#64,
   0x3d2466165a24fb99#64, 0x3d0d8307dc623b0e#64, 0x3cf55c27c95e13eb#64, 0x3cdeef96215305be#64,
   0x3cc669d2c90d55f3#64, 0x3c978feba47846e4#64, 0x3c68cf81557d2102#64, 0x3c3a29d81f1e22e7#64,
   0x3c0ba0666649f1ca#64, 0x3bdd34d326297c13#64, 0x3baee8f5964660f6#64, 0x3b805f6ade71239e#64,
   0x3b515c56df97eef0#64, 0x3b226c75e84fb13b#64, 0x3af3911a567e0743#64, 0x3ac4cbb3483839aa#64,
   0x3a961dce52e391c7#64, 0x3a678919738b382e#64, 0x3a390f6537f760a6#64, 0x3a0ab2a721342614#64,
   0x39dc74fc41217dfb#64, 0x39803015d179abbc#64, 0x392272b31366627b#64, 0x38c50e34f45d81d3#64,
   0x386810623b3d5f19#64, 0x380b89368ee13e81#64, 0x37af8b3c65f5edd2#64, 0x375215fae08f8afe#64,
   0x36f4c22b05c4dc66#64, 0x3697d8a7f2a8a2cf#64, 0x363b6a3d090a58a3#64, 0x35df8a67a7e7be0b#64,
   0x358227e35e796b1b#64, 0x3524ea4e458ab9a2#64, 0x34c81bb2d07cd50b#64, 0x346bcdc43c4387f5#64,
   0x34100a8872bb36c2#64, 0x3355635cd90e8b68#64, 0x329c90f21d2d48b8#64, 0x31e31b1226eae09a#64,
   0x3129977dc26fd8f4#64, 0x307129392888a98e#64, 0x2fb70a86fa9258e7#64, 0x2efef7b6fdf51d0c#64,
   0x2e44d479f701363e#64, 0x2d8c0bd0f188089b#64, 0x2cd2e5666d1202d3#64, 0x2c197b2d1d60253c#64,
   0x2b6131346d8ac8c7#64, 0x2aa736c487da7288#64, 0x29ef5d03008134d8#64, 0x293532d024b85b6e#64,
   0x287cabc2c3d98d7b#64, 0x270a42b873c5cb15#64, 0x259818282d7ca8fd#64, 0x242624089454f893#64,
   0x22b45fa48950aeff#64, 0x2142c5551f0c30c2#64, 0x1fd1504cb0696c46#64, 0x1e5ff8dc9e74fc36#64,
   0x1ced8c5c7ba66459#64, 0x1b7b54f244df93df#64, 0x1a094d409a60a0b9#64, 0x18977093bbde6419#64,
   0x1725bac7d112935a#64, 0x15b42833df90e609#64, 0x1442b598710caf11#64, 0x12d16011297b089e#64,
   0x11602508b8e263e8#64, 0x0e7beade0b3c8e85#64, 0x0b982de1daeba0d1#64, 0x08b4f94dc5c544c2#64,
   0x05d237f35d77118c#64, 0x02efb0a1bfc1901e#64, 0x000dcbd730b6e968#64, 0x0000000000000000#64,
   0x0000000000000000#64, 0x0000000000000000#64, 0x0000000000000000#64, 0x0000000000000000#64,
   0x0000000000000000#64, 0x0000000000000000#64, 0x0000000000000000#64, 0x0000000000000000#64]

/-- `qinv_sqrd_approx_uint64` -/
def qinvSqrdApprox : List (BitVec 64) :=
  [0x408eb3c3906a929d#64, 0x408ea8af50f99d74#64, 0x408e9d9b1292be4b#64, 0x408e9286d536b530#64,
   0x408e877298e642f3#64, 0x408e7c5e5da22941#64, 0x408e714a236b2a9b#64, 0x408e6635ea420a4f#64,
   0x408e5b21b2278c80#64, 0x408e500d7b1c762a#64, 0x408e44f945218d21#64, 0x408e39e510379809#64,
   0x408e2ed0dc5f5e72#64, 0x408e23bca999a8b4#64, 0x408e18a877e7400b#64, 0x408e0d944748ee93#64,
   0x408e028017bf7f43#64, 0x408df76be94bbdf2#64, 0x408dec57bbee775c#64, 0x408de1438fa8791d#64,
   0x408dd62f647a91b4#64, 0x408dcb1b3a659085#64, 0x408dc007116a45e0#64, 0x408db4f2e98982f6#64,
   0x408da9dec2c419e6#64, 0x408d9eca9d1addb5#64, 0x408d93b6788ea25e#64, 0x408d88a255203cb7#64,
   0x408d7d8e32d0829d#64, 0x408d727a11a04ac9#64, 0x408d6765f1906cee#64, 0x408d5c51d2a1c1b0#64,
   0x408d513db4d522aa#64, 0x408d4629982b6a6a#64, 0x408d3b157ca57479#64, 0x408d300162441d55#64,
   0x408d24ed49084276#64, 0x408d19d930f2c254#64, 0x408d0ec51a047c5d#64, 0x408d03b1043e5108#64,
   0x408cf89cefa121c5#64, 0x408ced88dc2dd102#64, 0x408ce274c9e5423d#64, 0x408cd760b8c859ea#64,
   0x408ccc4ca8d7fd92#64, 0x408cc1389a1513ba#64, 0x408cb6248c8083f8#64, 0x408cab10801b36e6#64,
   0x408c9ffc74e61634#64, 0x408c94e86ae20c9d#64, 0x408c89d4621005e4#64, 0x408c7ec05a70eee7#64,
   0x408c73ac5405b598#64, 0x408c68984ecf48f5#64, 0x408c5d844ace991e#64, 0x408c527048049741#64,
   0x408c475c467235af#64, 0x408c3c48461867ca#64, 0x408c313446f8221c#64, 0x408c262049125a4e#64,
   0x408c1b0c4c68071f#64, 0x408c0ff850fa207b#64, 0x408c04e456c99f71#64, 0x408bf9d05dd77e33#64,
   0x408beebc6624b81e#64, 0x408be3a86fb249b8#64, 0x408bd8947a8130b4#64, 0x408bcd8086926bf1#64,
   0x408bc26c93e6fb7e#64, 0x408bb758a27fe09f#64, 0x408bac44b25e1dc2#64, 0x408ba130c382b696#64,
   0x408b961cd5eeaffb#64, 0x408b8b08e9a31008#64, 0x408b7ff4fea0de16#64, 0x408b74e114e922b5#64,
   0x408b69cd2c7ce7b8#64, 0x408b5eb9455d382f#64, 0x408b53a55f8b2071#64, 0x408b48917b07ae1c#64,
   0x408b3d7d97d3f00c#64, 0x408b3269b5f0f66d#64, 0x408b2755d55fd2bc#64, 0x408b1c41f62197b6#64,
   0x408b112e18375972#64, 0x408b061a3ba22d58#64, 0x408afb0660632a1c#64, 0x408aeff2867b67d3#64,
   0x408ae4deadebffe0#64, 0x408ad9cad6b60d0a#64, 0x408aceb700daab6b#64, 0x408ac3a32c5af883#64,
   0x408ab88f59381333#64, 0x408aad7b87731bbd#64, 0x408aa267b70d33c7#64, 0x408a9753e8077e63#64,
   0x408a8c401a63200d#64, 0x408a812c4e213eab#64, 0x408a761883430193#64, 0x408a6b04b9c99193#64,
   0x408a5ff0f1b618df#64, 0x408a54dd2b09c32f#64, 0x408a49c965c5bdaf#64, 0x408a3eb5a1eb3705#64,
   0x408a33a1df7b5f56#64, 0x408a288e1e776844#64, 0x408a1d7a5ee084fb#64, 0x408a1266a0b7ea25#64,
   0x408a0752e3fecdf9#64, 0x4089fc3f28b66838#64, 0x4089f12b6edff22c#64, 0x4089e617b67ca6b5#64,
   0x4089db03ff8dc241#64, 0x4089cff04a1482d1#64, 0x4089c4dc96122809#64, 0x4089b9c8e387f31b#64,
   0x4089aeb5327726dc#64, 0x4089a3a182e107c1#64, 0x4089988dd4c6dbe2#64, 0x40898d7a2829eafc#64,
   0x408982667d0b7e72#64, 0x40897752d36ce15a#64, 0x40896c3f2b4f606e#64, 0x4089612b84b44a27#64,
   0x40895617df9ceea3#64, 0x40894b043c0a9fc0#64, 0x40893ff099feb115#64, 0x408934dcf97a77f7#64,
   0x408929c95a7f4b7a#64, 0x40891eb5bd0e8473#64, 0x408913a221297d80#64, 0x4089088e86d1930b#64,
   0x4088fd7aee082345#64, 0x4088f26756ce8e36#64, 0x4088e753c12635ad#64, 0x4088dc402d107d5f#64,
   0x4088d12c9a8ecace#64, 0x4088c61909a28560#64, 0x4088bb057a4d1659#64, 0x4088aff1ec8fe8de#64,
   0x4088a4de606c69ff#64, 0x408899cad5e408b2#64, 0x40888eb74cf835e2#64, 0x408883a3c5aa6461#64,
   0x408878903ffc08fe#64, 0x40886d7cbbee9a7a#64, 0x408862693983919a#64, 0x40885755b8bc691b#64,
   0x40884c42399a9dc0#64, 0x4088412ebc1fae51#64, 0x4088361b404d1ba0#64, 0x40882b07c6246890#64,
   0x40881ff44da71a14#64, 0x408814e0d6d6b734#64, 0x408809cd61b4c913#64, 0x4087feb9ee42daf0#64,
   0x4087f3a67c827a2d#64, 0x4087e8930c75364b#64, 0x4087dd7f9e1ca0ff#64, 0x4087d26c317a4e1e#64,
   0x4087c758c68fd3b7#64, 0x4087bc455d5eca0d#64, 0x4087b131f5e8cb99#64, 0x4087a61e902f7514#64,
   0x40879b0b2c346578#64, 0x40878ff7c9f93e02#64, 0x408784e4697fa23e#64, 0x408779d10ac93802#64,
   0x40876ebdadd7a778#64, 0x408763aa52ac9b23#64, 0x40875896f949bfdd#64, 0x40874d83a1b0c4e5#64,
   0x408742704be35bda#64, 0x4087375cf7e338c4#64, 0x40872c49a5b21220#64, 0x408721365551a0d0#64,
   0x4087162306c3a036#64, 0x40870b0fba09ce31#64, 0x4086fffc6f25eb16#64, 0x4086f4e92619b9cc#64,
   0x4086e9d5dee6ffb6#64, 0x4086dec2998f84d4#64, 0x4086d3af561513ae#64, 0x4086c89c1479796e#64,
   0x4086bd88d4be85cd#64, 0x4086b27596e60b3b#64, 0x4086a7625af1dec1#64, 0x40869c4f20e3d81c#64,
   0x4086913be8bdd1b2#64, 0x40868628b281a8ac#64, 0x40867b157e313ced#64, 0x408670024bce7112#64,
   0x408664ef1b5b2a8a#64, 0x408659dbecd95189#64, 0x40864ec8c04ad120#64, 0x408643b595b19729#64,
   0x408638a26d0f946b#64, 0x40862d8f4666bc87#64, 0x4086227c21b90608#64, 0x40861768ff086a6d#64,
   0x40860c55de56e627#64, 0x40860142bfa678a0#64, 0x4085f62fa2f92445#64, 0x4085eb1c8850ee8b#64,
   0x4085e0096fafdff1#64, 0x4085d4f659180408#64, 0x4085c9e3448b6980#64, 0x4085bed0320c2223#64,
   0x4085b3bd219c42e3#64, 0x4085a8aa133de3dc#64, 0x40859d9706f32066#64, 0x40859283fcbe1703#64,
   0x40858770f4a0e981#64, 0x40857c5dee9dbcef#64, 0x4085714aeab6b9aa#64, 0x40856637e8ee0b65#64,
   0x40855b24e945e12d#64, 0x40855011ebc06d6d#64, 0x408544fef05fe5fc#64, 0x408539ebf7268422#64,
   0x40852ed90016849c#64, 0x408523c60b3227a6#64, 0x408518b3187bb102#64, 0x40850da027f567fc#64,
   0x4085028d39a19776#64, 0x4084f77a4d828df1#64, 0x4084ec67639a9d8b#64, 0x4084e1547bec1c11#64,
   0x4084d64196796300#64, 0x4084cb2eb344cf96#64, 0x4084c01bd250c2ca#64, 0x4084b508f39fa165#64,
   0x4084a9f61733d402#64, 0x40849ee33d0fc70f#64, 0x408493d06535eae7#64, 0x408488bd8fa8b3c8#64,
   0x40847daabc6a99ec#64, 0x40847297eb7e1980#64, 0x408467851ce5b2ba#64, 0x40845c7250a3e9e1#64,
   0x4084515f86bb474d#64, 0x4084464cbf2e5775#64, 0x40843b39f9ffaafb#64, 0x408430273731d6b0#64,
   0x4084251476c773a1#64, 0x40841a01b8c31f1c#64, 0x40840eeefd277abf#64, 0x408403dc43f72c7b#64,
   0x4083f8c98d34dea2#64, 0x4083edb6d8e33ff1#64, 0x4083e2a427050395#64, 0x4083d791779ce138#64,
   0x4083cc7ecaad9510#64, 0x4083c16c2039dfe1#64, 0x4083b65978448706#64, 0x4083ab46d2d05488#64,
   0x4083a0342fe01718#64, 0x408395218f76a228#64, 0x40838a0ef196cdec#64, 0x40837efc56437764#64,
   0x408373e9bd7f8075#64, 0x408368d7274dcfe2#64, 0x40835dc493b1515b#64, 0x408352b202acf597#64,
   0x4083479f7443b24e#64, 0x40833c8ce878824b#64, 0x4083317a5f4e6579#64, 0x40832667d8c860ee#64,
   0x40831b5554e97ef2#64, 0x40831042d3b4cf17#64, 0x40830530552d6633#64, 0x4082fa1dd9565e83#64,
   0x4082ef0b6032d79e#64, 0x4082e3f8e9c5f698#64, 0x4082d8e67612e603#64, 0x4082cdd4051cd5fd#64,
   0x4082c2c196e6fc3c#64, 0x4082b7af2b749427#64, 0x4082ac9cc2c8decd#64, 0x4082a18a5ce72309#64,
   0x40829677f9d2ad7e#64, 0x40828b65998ed0b5#64, 0x408280533c1ee519#64, 0x40827540e1864917#64,
   0x40826a2e89c8611d#64, 0x40825f1c34e897b7#64, 0x40825409e2ea5d8b#64, 0x408248f793d1297f#64,
   0x40823de547a078b1#64, 0x408232d2fe5bce97#64, 0x408227c0b806b506#64, 0x40821cae74a4bc40#64,
   0x4082119c34397b0d#64, 0x40820689f6c88ec3#64, 0x4081fb77bc559b54#64, 0x4081f06584e44b67#64,
   0x4081e55350785061#64, 0x4081da411f156279#64, 0x4081cf2ef0bf40c6#64, 0x4081c41cc579b155#64,
   0x4081b90a9d488136#64, 0x4081adf8782f848f#64, 0x4081a2e6563296ab#64, 0x408197d437559a12#64,
   0x40818cc21b9c7891#64, 0x408181b0030b235b#64, 0x4081769deda5930b#64, 0x40816b8bdb6fc7c6#64,
   0x40816079cc6dc93e#64, 0x40815567c0a3a6d8#64, 0x40814a55b81577ab#64, 0x40813f43b2c75aa7#64,
   0x40813431b0bd769c#64, 0x4081291fb1fbfa50#64, 0x40811e0db6871c9b#64, 0x408112fbbe631c74#64,
   0x408107e9c9944105#64, 0x4080fcd7d81ed9c9#64, 0x4080f1c5ea073e97#64, 0x4080e6b3ff51cfc1#64,
   0x4080dba21802f623#64, 0x4080d090341f233d#64, 0x4080c57e53aad14b#64, 0x4080ba6c76aa8353#64,
   0x4080af5a9d22c54e#64, 0x4080a448c7182c27#64, 0x40809936f48f55e9#64, 0x40808e25258ce9ce#64,
   0x408083135a159855#64, 0x40807801922e1b5c#64, 0x40806cefcddb363d#64, 0x408061de0d21b5e5#64,
   0x408056cc500670ea#64, 0x40804bba968e47ae#64, 0x408040a8e0be246f#64, 0x408035972e9afb68#64,
   0x40802a858029caf0#64, 0x40801f73d56f9b84#64, 0x408014622e718000#64, 0x408009508b349597#64,
   0x407ffc7dd77c0824#64, 0x407fe65aa025fbb2#64, 0x407fd03770718026#64, 0x407fba144869258d#64,
   0x407fa3f1281791f2#64, 0x407f8dce0f878191#64, 0x407f77aafec3c723#64, 0x407f6187f5d74c0b#64,
   0x407f4b64f4cd10ac#64, 0x407f3541fbb02c8c#64, 0x407f1f1f0a8bceb7#64, 0x407f08fc216b3de5#64,
   0x407ef2d94059d8cf#64, 0x407edcb66763166b#64, 0x407ec6939692862f#64, 0x407eb070cdf3d068#64,
   0x407e9a4e0d92b664#64, 0x407e842b557b12d0#64, 0x407e6e08a5b8da02#64, 0x407e57e5fe581a36#64,
   0x407e41c35f64fbde#64, 0x407e2ba0c8ebc1f4#64, 0x407e157e3af8ca3b#64, 0x407dff5bb5988da6#64,
   0x407de93938d7a080#64, 0x407dd316c4c2b2e9#64, 0x407dbcf459669103#64, 0x407da6d1f6d0235b#64,
   0x407d90af9d0c6f34#64, 0x407d7a8d4c2896e2#64, 0x407d646b0431da19#64, 0x407d4e48c535964c#64,
   0x407d38268f414708#64, 0x407d22046262863d#64, 0x407d0be23ea70cb4#64, 0x407cf5c0241cb25a#64,
   0x407cdf9e12d16ea3#64, 0x407cc97c0ad358eb#64, 0x407cb35a0c30a8d8#64, 0x407c9d3816f7b6c0#64,
   0x407c87162b36fbfd#64, 0x407c70f448fd136c#64, 0x407c5ad27058b9c0#64, 0x407c44b0a158cdf8#64,
   0x407c2e8edc0c51c4#64, 0x407c186d208269e4#64, 0x407c024b6eca5eb8#64, 0x407bec29c6f39c8c#64,
   0x407bd608290db41c#64, 0x407bbfe695285b01#64, 0x407ba9c50b536c2e#64, 0x407b93a38b9ee85b#64,
   0x407b7d82161af67e#64, 0x407b6760aad7e453#64, 0x407b513f49e626cc#64, 0x407b3b1df3565a8c#64,
   0x407b24fca7394475#64, 0x407b0edb659fd220#64, 0x407af8ba2e9b1a63#64, 0x407ae299023c5dd9#64,
   0x407acc77e0950765#64, 0x407ab656c9b6acc6#64, 0x407aa035bdb30f1f#64, 0x407a8a14bc9c1b81#64,
   0x407a73f3c683eb89#64, 0x407a5dd2db7cc5e4#64, 0x407a47b1fb991ef5#64, 0x407a319126eb9961#64,
   0x407a1b705d8706af#64, 0x407a054f9f7e67e8#64, 0x4079ef2eece4ee39#64, 0x4079d90e45cdfb8a#64,
   0x4079c2edaa4d2332#64, 0x4079accd1a762a98#64, 0x407996ac965d09d9#64, 0x4079808c1e15ec88#64,
   0x40796a6bb1b5324d#64, 0x4079544b514f6fa0#64, 0x40793e2afcf96e7e#64, 0x4079280ab4c82f27#64,
   0x407911ea78d0e8d8#64, 0x4078fbca49290a92#64, 0x4078e5aa25e63bca#64, 0x4078cf8a0f1e5d52#64,
   0x4078b96a04e789fe#64, 0x4078a34a0758178e#64, 0x40788d2a1686977a#64, 0x4078770a3289d7ba#64,
   0x407860ea5b78e3ab#64, 0x40784aca916b04ed#64, 0x407834aad477c443#64, 0x40781e8b24b6ea6d#64,
   0x4078086b82408120#64, 0x4077f24bed2cd3e7#64, 0x4077dc2c65947121#64, 0x4077c60ceb902ae7#64,
   0x4077afed7f391812#64, 0x407799ce20a89536#64, 0x407783aecff845a5#64, 0x40776d8f8d421476#64,
   0x4077577058a03595#64, 0x40774151322d26cc#64, 0x40772b321a03b0e5#64, 0x40771513103ee8be#64,
   0x4076fef414fa3074#64, 0x4076e8d528513877#64, 0x4076d2b64a6000c8#64, 0x4076bc977b42da23#64,
   0x4076a678bb166736#64, 0x4076905a09f79ddd#64, 0x40767a3b6803c86f#64, 0x4076641cd55886fb#64,
   0x40764dfe5213d099#64, 0x407637dfde53f4c8#64, 0x407621c17a379cca#64, 0x40760ba325ddcd00#64,
   0x4075f584e165e654#64, 0x4075df66acefa7b8#64, 0x4075c948889b2f8c#64, 0x4075b32a7488fd30#64,
   0x40759d0c70d9f279#64, 0x407586ee7daf5559#64, 0x407570d09b2ad158#64, 0x40755ab2c96e794b#64,
   0x40754495089cc8f4#64, 0x40752e7758d8a6ae#64, 0x40751859ba45652b#64, 0x4075023c2d06c53a#64,
   0x4074ec1eb140f788#64, 0x4074d60147189e77#64, 0x4074bfe3eeb2d004#64, 0x4074a9c6a83517a6#64,
   0x407493a973c57843#64, 0x40747d8c518a6e2d#64, 0x4074676f41aaf12a#64, 0x40745152444e767d#64,
   0x40743b35599cf31a#64, 0x4074251881beddad#64, 0x40740efbbcdd30e7#64, 0x4073f8df0b216dbb#64,
   0x4073e2c26cb59d9e#64, 0x4073cca5e1c454ee#64, 0x4073b6896a78b54d#64, 0x4073a06d06fe701f#64,
   0x40738a50b781c902#64, 0x407374347c2f9862#64, 0x40735e1855354e10#64, 0x407347fc42c0f3fa#64,
   0x407331e0450130df#64, 0x40731bc45c254b12#64, 0x407305a8885d2b64#64, 0x4072ef8cc9d96005#64,
   0x4072d97120cb1f87#64, 0x4072c3558d644be0#64, 0x4072ad3a0fd77597#64, 0x4072971ea857deec#64,
   0x4072810357197f1f#64, 0x40726ae81c5105cb#64, 0x407254ccf833de49#64, 0x40723eb1eaf83335#64,
   0x40722896f4d4f205#64, 0x4072127c1601ceb0#64, 0x4071fc614eb74769#64, 0x4071e6469f2ea87f#64,
   0x4071d02c07a2104a#64, 0x4071ba11884c732b#64, 0x4071a3f721699fb2#64, 0x40718ddcd33642d5#64,
   0x407177c29defec42#64, 0x407161a881d512ce#64, 0x40714b8e7f2518fa#64, 0x40713574962051a8#64,
   0x40711f5ac70804cb#64, 0x40710941121e745d#64, 0x4070f32777a6e150#64, 0x4070dd0df7e590bc#64,
   0x4070c6f4931fd11c#64, 0x4070b0db499bffb9#64, 0x40709ac21ba18e27#64, 0x407084a909790801#64,
   0x40706e90136c18b3#64, 0x4070587739c59172#64, 0x4070425e7cd16f5e#64, 0x40702c45dcdce1d3#64,
   0x4070162d5a3650d2#64, 0x40700014f52d63ad#64, 0x406fd3f95c260f96#64, 0x406fa7c90a72ef4d#64,
   0x406f7b98f5e883f8#64, 0x406f4f691f30a24b#64, 0x406f233986f7e559#64, 0x406ef70a2dedbe20#64,
   0x406ecadb14c4837d#64, 0x406e9eac3c31829d#64, 0x406e727da4ed0fd6#64, 0x406e464f4fb29803#64,
   0x406e1a213d40b25a#64, 0x406dedf36e5932ba#64, 0x406dc1c5e3c13c8c#64, 0x406d95989e415624#64,
   0x406d696b9ea57cbd#64, 0x406d3d3ee5bd38ed#64, 0x406d1112745bb3da#64, 0x406ce4e64b57ccee#64,
   0x406cb8ba6b8c303a#64, 0x406c8c8ed5d76d7f#64, 0x406c60638b1c0fed#64, 0x406c34388c40b696#64,
   0x406c080dda302d8e#64, 0x406bdbe375d987f0#64, 0x406bafb960303a86#64, 0x406b838f9a2c3767#64,
   0x406b576624ca0a4e#64, 0x406b2b3d010af5ef#64, 0x406aff142ff51225#64, 0x406ad2ebb2936b14#64,
   0x406aa6c389f6215a#64, 0x406a7a9bb7328b20#64, 0x406a4e743b635669#64, 0x406a224d17a8ac5d#64,
   0x4069f6264d2855b8#64, 0x4069c9ffdd0de07d#64, 0x40699dd9c88ac6e7#64, 0x406971b410d69781#64,
   0x4069458eb72f1ec0#64, 0x40691969bcd891ed#64, 0x4068ed45231dbb79#64, 0x4068c120eb5028ea#64,
   0x406894fd16c85a48#64, 0x406868d9a6e5f33e#64, 0x40683cb69d0fedcf#64, 0x40681093fab4cefa#64,
   0x4067e471c14add1f#64, 0x4067b84ff2505856#64, 0x40678c2e8f4bb4c1#64, 0x4067600d99cbd710#64,
   0x406733ed13685322#64, 0x406707ccfdc1ace2#64, 0x4066dbad5a819bae#64, 0x4066af8e2b5b5011#64,
   0x4066836f720bbc37#64, 0x406657513059df0b#64, 0x40662b3368171226#64, 0x4065ff161b1f5acd#64,
   0x4065d2f94b59bdf6#64, 0x4065a6dcfab8979e#64, 0x40657ac12b39f571#64, 0x40654ea5dee7f520#64,
   0x4065228b17d92663#64, 0x4064f670d830f0e1#64, 0x4064ca57221ffe43#64, 0x40649e3df7e4a883#64,
   0x406472255bcb6cd2#64, 0x4064460d502f632a#64, 0x406419f5d77abae6#64, 0x4063eddef4273c89#64,
   0x4063c1c8a8bed118#64, 0x406395b2f7dc0f15#64, 0x4063699de42acdb7#64, 0x40633d897068be66#64,
   0x406311759f660cfa#64, 0x4062e5627406070b#64, 0x4062b94ff13fcac5#64, 0x40628d3e1a1efd7c#64,
   0x4062612cf1c48a9d#64, 0x4062351c7b676b5a#64, 0x4062090cba557787#64, 0x4061dcfdb1f4403e#64,
   0x4061b0ef65c1f4c1#64, 0x406184e1d956524f#64, 0x406158d510639f5b#64, 0x40612cc90eb7b318#64,
   0x406100bdd83d09b0#64, 0x4060d4b370fbe65e#64, 0x4060a8a9dd1b83be#64, 0x40607ca120e353aa#64,
   0x4060509940bc4f2d#64, 0x40602492413257e3#64, 0x405ff1184deb5717#64, 0x405f990dedb8d671#64,
   0x405f41056bc86e4f#64, 0x405ee8fed267c16a#64, 0x405e90fa2c3a679a#64, 0x405e38f7843db2c4#64,
   0x405de0f6e5cca950#64, 0x405d88f85ca4395f#64, 0x405d30fbf4e7a924#64, 0x405cd901bb254816#64,
   0x405c8109bc5b65b4#64, 0x405c291405fd92c3#64, 0x405bd120a5fa3234#64, 0x405b792faac05f8b#64,
   0x405b2141234630d3#64, 0x405ac9551f0f5b20#64, 0x405a716bae3440a0#64, 0x405a1984e1697093#64,
   0x4059c1a0ca07a17e#64, 0x405969bf7a142f67#64, 0x405911e1044a282a#64, 0x4058ba057c23f16f#64,
   0x4058622cf5e59469#64, 0x40580a5786a7bd04#64, 0x4057b28544637b5f#64, 0x40575ab645fed7ba#64,
   0x405702eaa35a4ae6#64, 0x4056ab22755f2eb2#64, 0x4056535dd60f3c6f#64, 0x4055fb9ce09530eb#64,
   0x4055a3dfb156b0f5#64, 0x40554c2666078b44#64, 0x4054f4711dbe786a#64, 0x40549cbff90b7ccf#64,
   0x405445131a1014bd#64, 0x4053ed6aa4995712#64, 0x405395c6be3c405c#64, 0x40533e278e745de4#64,
   0x4052e68d3ec516e4#64, 0x40528ef7faddd97d#64, 0x40523767f0c179f9#64, 0x4051dfdd50f11c46#64,
   0x405188584e9b0b34#64, 0x405130d91fcdedca#64, 0x4050d95ffdb0da00#64, 0x405081ed24c0d531#64,
   0x40502a80d51466d4#64, 0x404fa636a54bf1a8#64, 0x404ef779cb4bb7bd#64, 0x404e48cbb5a9caf1#64,
   0x404d9a2d07d18474#64, 0x404ceb9e6ff68389#64, 0x404c3d20a80c29d4#64, 0x404b8eb476d964c6#64,
   0x404ae05ab12cbbca#64, 0x404a32143b354422#64, 0x404983e20a05e6d2#64, 0x4048d5c5254957f0#64,
   0x404827bea92e4492#64, 0x404779cfc8949fc7#64, 0x4046cbf9cf86a781#64, 0x40461e3e260a4a53#64,
   0x4045709e535a207a#64, 0x4044c31c01984c24#64, 0x404415b902117944#64, 0x40436877522b1241#64,
   0x4042bb59211ddc8c#64, 0x40420e60d6a5ef23#64, 0x404161911adad5dc#64, 0x4040b4ecdf6f65b6#64,
   0x404008776aa93857#64, 0x403eb868c8ea8272#64, 0x403d604fcc368a1b#64]

/-! ## The functions -/

/-- `qfunc_sqrt`. There is no result for an index outside of the table. -/
def qfuncSqrt (snr : BitVec 64) : Option (BitVec 64) :=
  -- get the exponent and map it into [-15, 30]
  let exponent : ℤ := ((snr >>> 52) &&& 0x7ff#64).toNat
  let realExp := exponent - 1023 + 15
  -- get the first 4 bits of mantissa (rounded)
  let mantissa := ((snr >>> 47) &&& 0x1f#64).toNat
  let (realExp, mantissa) :=
    if mantissa = 31 then (realExp + 1, 0) else (realExp, (mantissa + 1) / 2)
  if realExp < 0 then some 0x3fe0000000000000#64
  else if qTableLen ≤ realExp then some 0#64
  else qSqrtApprox[(realExp * 16 + mantissa).toNat]?

/-- The double whose bits encode the index `cur` of the table. -/
def encodeIndex (cur : ℕ) : BitVec 64 :=
  (BitVec.ofNat 64 cur + BitVec.ofNat 64 ((1023 - 15) * 16)) <<< 48

/-- `qfuncinv_sqrd` -/
def qfuncinvSqrd (ber : BitVec 64) : Option (BitVec 64) :=
  let exponent : ℤ := ((ber >>> 52) &&& 0x7ff#64).toNat
  let realExp := exponent - 1023 + 715
  if realExp < 0 then qinvSqrdApprox[0]?
  else if realExp < qinvTableLen then qinvSqrdApprox[realExp.toNat]?
  else
    (bisect (fun cur => qSqrtApprox[cur]?.map (gt · ber)) 0 (qTableLen * qTableBits - 1)).map
      encodeIndex

/-! ## The table -/

theorem length_qSqrtApprox : qSqrtApprox.length = 416 := by decide +kernel

theorem isChain_qSqrtApprox : qSqrtApprox.IsChain fun a b => b.toNat ≤ a.toNat := by
  decide +kernel

/-- Entry `i`, continued by zeros. -/
def entry (i : ℕ) : BitVec 64 := qSqrtApprox.getD i 0#64

theorem getElem?_qSqrtApprox {i : ℕ} (hi : i < 416) : qSqrtApprox[i]? = some (entry i) := by
  rw [← length_qSqrtApprox] at hi
  rw [entry, List.getD_eq_getElem _ _ hi, List.getElem?_eq_getElem hi]

theorem entry_of_le {i : ℕ} (hi : 416 ≤ i) : entry i = 0#64 :=
  List.getD_eq_default _ _ (length_qSqrtApprox.trans_le hi)

/-- **The table is not increasing.** -/
theorem antitone_entry : Antitone fun i => (entry i).toNat := by
  intro i j hij
  change (entry j).toNat ≤ (entry i).toNat
  rcases Nat.lt_or_ge j 416 with hj | hj
  · have hpair := List.isChain_iff_pairwise.1 isChain_qSqrtApprox
    rw [← length_qSqrtApprox] at hj
    rw [entry, entry, List.getD_eq_getElem _ _ hj, List.getD_eq_getElem _ _ (hij.trans_lt hj)]
    rcases Nat.lt_or_eq_of_le hij with hlt | rfl
    · exact List.pairwise_iff_getElem.1 hpair i j _ hj hlt
    · exact le_rfl
  · rw [entry_of_le hj]
    exact Nat.zero_le _

theorem toNat_entry_le (i : ℕ) : (entry i).toNat ≤ 0x3fdfdbe45d68b162 :=
  antitone_entry (Nat.zero_le i)

theorem msb_entry (i : ℕ) : (entry i).msb = false := by
  have hle := toNat_entry_le i
  rw [BitVec.msb_eq_decide, decide_eq_false_iff_not]
  omega

theorem isFinite_entry (i : ℕ) : IsFinite (entry i) := by
  have hle := toNat_entry_le i
  rw [IsFinite, exponent, magnitude_of_msb (msb_entry i)]
  omega

/-! ## What an argument stands for -/

theorem toNat_fields (u : BitVec 64) (hu : u.msb = false) :
    ((u >>> 52) &&& 0x7ff#64).toNat = u.toNat / 2 ^ 52 ∧
      ((u >>> 47) &&& 0x1f#64).toNat = u.toNat / 2 ^ 47 % 32 := by
  have hlt := toNat_lt_of_msb hu
  have hexp : (0x7ff#64).toNat = 2 ^ 11 - 1 := rfl
  have hman : (0x1f#64).toNat = 2 ^ 5 - 1 := rfl
  constructor
  · rw [BitVec.toNat_and, hexp, Nat.and_two_pow_sub_one_eq_mod, BitVec.toNat_ushiftRight,
      Nat.shiftRight_eq_div_pow]
    omega
  · rw [BitVec.toNat_and, hman, Nat.and_two_pow_sub_one_eq_mod, BitVec.toNat_ushiftRight,
      Nat.shiftRight_eq_div_pow]

/-- The exponent and the first 4 bits of the mantissa, rounded: a mantissa of ones carries into
the exponent. -/
def rounded (u : BitVec 64) : ℕ := (u.toNat / 2 ^ 47 + 1) / 2

/-- The result for a rounded pattern: the indices start at an exponent of -15. -/
def approx (n : ℕ) : BitVec 64 :=
  if n < 16128 then 0x3fe0000000000000#64 else entry (n - 16128)

/-- An index with its exponent and its mantissa. -/
theorem lookup_eq {realExp : ℤ} {mantissa n : ℕ} (hmantissa : mantissa < 16)
    (h : realExp * 16 + mantissa = n - 16128) :
    (if realExp < 0 then some 0x3fe0000000000000#64
      else if qTableLen ≤ realExp then some 0#64
      else qSqrtApprox[(realExp * 16 + mantissa).toNat]?) = some (approx n) := by
  have hlen : ((qTableLen : ℕ) : ℤ) = 26 := rfl
  rw [hlen, approx]
  rcases lt_or_ge realExp 0 with hneg | hnonneg
  · rw [if_pos hneg, if_pos (by omega)]
  · have hlow : ¬ n < 16128 := by omega
    rw [if_neg (not_lt.2 hnonneg), if_neg hlow]
    rcases lt_or_ge realExp 26 with hin | hout
    · have hnat : (realExp * 16 + mantissa).toNat = n - 16128 := by omega
      rw [if_neg (not_le.2 hin), hnat, getElem?_qSqrtApprox (by omega)]
    · rw [if_pos hout, entry_of_le (by omega)]

/-- **`qfunc_sqrt` indexes inside the table.** -/
theorem qfuncSqrt_eq {u : BitVec 64} (hu : u.msb = false) :
    qfuncSqrt u = some (approx (rounded u)) := by
  have hlt := toNat_lt_of_msb hu
  obtain ⟨hexp, hman⟩ := toNat_fields u hu
  unfold qfuncSqrt
  simp only [hexp, hman]
  by_cases hcarry : u.toNat / 2 ^ 47 % 32 = 31
  · rw [if_pos hcarry]
    exact lookup_eq (Nat.zero_lt_succ _) (by unfold rounded; omega)
  · rw [if_neg hcarry]
    exact lookup_eq (by omega) (by unfold rounded; omega)

theorem antitone_approx : Antitone fun n => (approx n).toNat := by
  intro m n hmn
  change (approx n).toNat ≤ (approx m).toNat
  unfold approx
  split_ifs with hn hm hm
  · exact le_rfl
  · omega
  · exact (toNat_entry_le _).trans (by decide)
  · exact antitone_entry (by omega)

theorem msb_approx (n : ℕ) : (approx n).msb = false := by
  unfold approx
  split_ifs
  · rfl
  · exact msb_entry _

theorem rounded_mono {u v : BitVec 64} (h : u.toNat ≤ v.toNat) : rounded u ≤ rounded v := by
  unfold rounded
  omega

/-- An encoded index stands for its entry. -/
theorem qfuncSqrt_encodeIndex {cur : ℕ} (hcur : cur < 416) :
    qfuncSqrt (encodeIndex cur) = qSqrtApprox[cur]? := by
  have htoNat : (encodeIndex cur).toNat = (cur + 16128) * 2 ^ 48 := by
    rw [encodeIndex, BitVec.toNat_shiftLeft, BitVec.toNat_add, BitVec.toNat_ofNat,
      BitVec.toNat_ofNat, Nat.shiftLeft_eq]
    omega
  have hmsb : (encodeIndex cur).msb = false := by
    rw [BitVec.msb_eq_decide, htoNat, decide_eq_false_iff_not]
    omega
  have hround : rounded (encodeIndex cur) = cur + 16128 := by
    rw [rounded, htoNat]
    omega
  rw [qfuncSqrt_eq hmsb, hround, approx, if_neg (by omega), Nat.add_sub_cancel,
    getElem?_qSqrtApprox hcur]

/-! ## The search -/

/-- The exponents beyond the second table. -/
theorem le_exponent_iff {ber : BitVec 64} (hber : ber.msb = false) :
    999 ≤ exponent ber ↔ (2 : ℚ) ^ (-24 : ℤ) ≤ toRat ber := by
  have hpow : toRat (BitVec.ofNat 64 (999 * 2 ^ 52)) = (2 : ℚ) ^ (-24 : ℤ) :=
    toRat_two_pow (by decide) (by decide)
  have htoNat : (BitVec.ofNat 64 (999 * 2 ^ 52)).toNat = 999 * 2 ^ 52 := rfl
  rw [← hpow, toRat_le_iff_of_msb rfl hber, htoNat, exponent, magnitude_of_msb hber,
    Nat.le_div_iff_mul_le (by decide)]

/-- Beyond the second table the rate is searched in the whole first one. -/
theorem qfuncinvSqrd_eq {ber : BitVec 64} (hber : ber.msb = false) (hexp : 999 ≤ exponent ber) :
    qfuncinvSqrd ber =
      (bisect (fun cur => qSqrtApprox[cur]?.map (gt · ber)) 0 415).map encodeIndex := by
  rw [exponent, magnitude_of_msb hber] at hexp
  unfold qfuncinvSqrd qinvTableLen
  simp only [(toNat_fields ber hber).1]
  rw [if_neg (by omega), if_neg (by omega)]
  rfl

theorem length_qinvSqrdApprox : qinvSqrdApprox.length = 691 := by decide +kernel

/-- The inverse indexes inside the tables, too. -/
theorem qfuncinvSqrd_isSome {ber : BitVec 64} (hber : ber.msb = false) :
    (qfuncinvSqrd ber).isSome := by
  rcases Nat.lt_or_ge (exponent ber) 999 with hlt | hge
  · rw [exponent, magnitude_of_msb hber] at hlt
    have hlen : ((qinvTableLen : ℕ) : ℤ) = 691 := rfl
    unfold qfuncinvSqrd
    simp only [(toNat_fields ber hber).1, hlen]
    split_ifs with hneg hsmall
    · rfl
    · rw [List.getElem?_eq_getElem (by rw [length_qinvSqrdApprox]; omega)]
      rfl
    · omega
  · rw [qfuncinvSqrd_eq hber hge, Option.isSome_map]
    refine bisect_isSome fun i hi => ?_
    rw [getElem?_qSqrtApprox (by omega)]
    rfl

/-- **The search finds the first entry that is at most the rate.** -/
theorem qfuncinvSqrd_isLeast {ber : BitVec 64} (hfin : IsFinite ber)
    (hle : (2 : ℚ) ^ (-24 : ℤ) ≤ toRat ber) :
    ∃ cur, IsLeast {i | ∃ q, qSqrtApprox[i]? = some q ∧ toRat q ≤ toRat ber} cur ∧
      qfuncinvSqrd ber = some (encodeIndex cur) := by
  have hpos : 0 < toRat ber := lt_of_lt_of_le (zpow_pos (by norm_num) _) hle
  have hmsb := msb_of_toRat_pos hpos
  have hp : ∀ i ≤ 415, qSqrtApprox[i]?.map (gt · ber) = some (gt (entry i) ber) := fun i hi => by
    rw [getElem?_qSqrtApprox (by omega)]
    rfl
  have hanti : ∀ i j, i ≤ j → j ≤ 415 → gt (entry j) ber = true → gt (entry i) ber = true := by
    intro i j hij _ hj
    rw [gt_iff (isFinite_entry _) hfin] at hj ⊢
    exact hj.trans_le ((toRat_le_iff_of_msb (msb_entry _) (msb_entry _)).2 (antitone_entry hij))
  have hzero : gt (entry 415) ber = false := by
    have hentry : toRat (entry 415) ≤ toRat ber :=
      (toRat_le_iff_of_msb (msb_entry _) hmsb).2 (Nat.zero_le _)
    rw [← Bool.not_eq_true, gt_iff (isFinite_entry _) hfin]
    exact not_lt.2 hentry
  obtain ⟨cur, hcur, hleast⟩ := bisect_isLeast hp hanti hzero
  refine ⟨cur, ?_, ?_⟩
  · -- the test fails at the entries that are at most the rate
    convert hleast using 1
    ext i
    change (∃ q, qSqrtApprox[i]? = some q ∧ toRat q ≤ toRat ber) ↔
      qSqrtApprox[i]?.map (gt · ber) = some false
    rw [Option.map_eq_some_iff]
    refine exists_congr fun q => and_congr_right fun hq => ?_
    have hentry : q = entry i := by
      rw [entry, List.getD_eq_getElem?_getD, hq]
      rfl
    rw [← Bool.not_eq_true, hentry, gt_iff (isFinite_entry _) hfin, not_lt]
  · rw [qfuncinvSqrd_eq hmsb ((le_exponent_iff hmsb).2 hle), hcur]
    rfl

/-- **The search inverts the table**, which every pattern without a sign is looked up in. -/
theorem q_search_inverts :
    (∀ ber, IsFinite ber → (2 : ℚ) ^ (-24 : ℤ) ≤ toRat ber →
      ∃ cur, IsLeast {i | ∃ q, qSqrtApprox[i]? = some q ∧ toRat q ≤ toRat ber} cur ∧
        qfuncinvSqrd ber = some (encodeIndex cur) ∧
        qfuncSqrt (encodeIndex cur) = qSqrtApprox[cur]?) ∧
      (∀ u : BitVec 64, u.msb = false → (qfuncSqrt u).isSome) ∧
      ∀ u v : BitVec 64, u.msb = false → v.msb = false → u ≤ v →
        ∃ a b, qfuncSqrt u = some a ∧ qfuncSqrt v = some b ∧ toRat b ≤ toRat a := by
  refine ⟨fun ber hfin hle => ?_, fun u hu => ?_, fun u v hu hv huv => ?_⟩
  · obtain ⟨cur, hleast, hres⟩ := qfuncinvSqrd_isLeast hfin hle
    obtain ⟨q, hq, -⟩ := hleast.1
    have hcur : cur < 416 := by
      rw [← length_qSqrtApprox]
      exact (List.getElem?_eq_some_iff.1 hq).1
    exact ⟨cur, hleast, hres, qfuncSqrt_encodeIndex hcur⟩
  · rw [qfuncSqrt_eq hu]
    rfl
  · refine ⟨_, _, qfuncSqrt_eq hu, qfuncSqrt_eq hv, ?_⟩
    rw [toRat_le_iff_of_msb (msb_approx _) (msb_approx _)]
    exact antitone_approx (rounded_mono huv)

/-- The double next to 0.1. -/
def tenth : BitVec 64 := 0x3fb999999999999a#64

/-- An error rate of 0.1 is found, with its argument. -/
theorem q_search_inverts_tenth :
    ∃ cur, IsLeast {i | ∃ q, qSqrtApprox[i]? = some q ∧ toRat q ≤ toRat tenth} cur ∧
      encodeIndex cur = 0x3ffb000000000000#64 ∧
      qSqrtApprox[cur]? = some 0x3fb8d2b9e61e829d#64 := by
  have hrate : (2 : ℚ) ^ (-24 : ℤ) ≤ toRat tenth := (le_exponent_iff (by decide)).1 (by decide)
  have hsearch : qfuncinvSqrd tenth = some 0x3ffb000000000000#64 := by decide +kernel
  obtain ⟨cur, hleast, hres, hback⟩ := q_search_inverts.1 tenth (by decide) hrate
  have hcur : encodeIndex cur = 0x3ffb000000000000#64 := Option.some.inj (hres.symm.trans hsearch)
  refine ⟨cur, hleast, hcur, ?_⟩
  rw [← hback, hcur]
  decide +kernel

end Iax.Incsi
