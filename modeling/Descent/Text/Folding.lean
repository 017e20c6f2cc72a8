import Descent.Text.CodeRange

/-!
# Full case folding

Folding maps each character to the text that caseless comparison of whole texts compares: usually one
character, sometimes two or three (`ß` folds to `ss`). It works character by character and never yields
nothing, which is what makes a folded text comparable piece by piece.
-/

namespace Descent.Text

/-- How far each character with a one-character folding is moved (version 14 of the standard). -/
def foldShifts : List Shift :=
  [⟨32, 65, 90, 1⟩, ⟨775, 181, 181, 1⟩, ⟨32, 192, 214, 1⟩, ⟨32, 216, 222, 1⟩, ⟨1, 256, 302, 2⟩,
   ⟨1, 306, 310, 2⟩, ⟨1, 313, 327, 2⟩, ⟨1, 330, 374, 2⟩, ⟨-121, 376, 376, 1⟩, ⟨1, 377, 381, 2⟩,
   ⟨-268, 383, 383, 1⟩, ⟨210, 385, 385, 1⟩, ⟨1, 386, 388, 2⟩, ⟨206, 390, 390, 1⟩, ⟨1, 391, 391, 1⟩,
   ⟨205, 393, 394, 1⟩, ⟨1, 395, 395, 1⟩, ⟨79, 398, 398, 1⟩, ⟨202, 399, 399, 1⟩, ⟨203, 400, 400, 1⟩,
   ⟨1, 401, 401, 1⟩, ⟨205, 403, 403, 1⟩, ⟨207, 404, 404, 1⟩, ⟨211, 406, 406, 1⟩,
   ⟨209, 407, 407, 1⟩, ⟨1, 408, 408, 1⟩, ⟨211, 412, 412, 1⟩, ⟨213, 413, 413, 1⟩,
   ⟨214, 415, 415, 1⟩, ⟨1, 416, 420, 2⟩, ⟨218, 422, 422, 1⟩, ⟨1, 423, 423, 1⟩, ⟨218, 425, 425, 1⟩,
   ⟨1, 428, 428, 1⟩, ⟨218, 430, 430, 1⟩, ⟨1, 431, 431, 1⟩, ⟨217, 433, 434, 1⟩, ⟨1, 435, 437, 2⟩,
   ⟨219, 439, 439, 1⟩, ⟨1, 440, 440, 1⟩, ⟨1, 444, 444, 1⟩, ⟨2, 452, 452, 1⟩, ⟨1, 453, 453, 1⟩,
   ⟨2, 455, 455, 1⟩, ⟨1, 456, 456, 1⟩, ⟨2, 458, 458, 1⟩, ⟨1, 459, 475, 2⟩, ⟨1, 478, 494, 2⟩,
   ⟨2, 497, 497, 1⟩, ⟨1, 498, 500, 2⟩, ⟨-97, 502, 502, 1⟩, ⟨-56, 503, 503, 1⟩, ⟨1, 504, 542, 2⟩,
   ⟨-130, 544, 544, 1⟩, ⟨1, 546, 562, 2⟩, ⟨10795, 570, 570, 1⟩, ⟨1, 571, 571, 1⟩,
   ⟨-163, 573, 573, 1⟩, ⟨10792, 574, 574, 1⟩, ⟨1, 577, 577, 1⟩, ⟨-195, 579, 579, 1⟩,
   ⟨69, 580, 580, 1⟩, ⟨71, 581, 581, 1⟩, ⟨1, 582, 590, 2⟩, ⟨116, 837, 837, 1⟩, ⟨1, 880, 882, 2⟩,
   ⟨1, 886, 886, 1⟩, ⟨116, 895, 895, 1⟩, ⟨38, 902, 902, 1⟩, ⟨37, 904, 906, 1⟩, ⟨64, 908, 908, 1⟩,
   ⟨63, 910, 911, 1⟩, ⟨32, 913, 929, 1⟩, ⟨32, 931, 939, 1⟩, ⟨1, 962, 962, 1⟩, ⟨8, 975, 975, 1⟩,
   ⟨-30, 976, 976, 1⟩, ⟨-25, 977, 977, 1⟩, ⟨-15, 981, 981, 1⟩, ⟨-22, 982, 982, 1⟩,
   ⟨1, 984, 1006, 2⟩, ⟨-54, 1008, 1008, 1⟩, ⟨-48, 1009, 1009, 1⟩, ⟨-60, 1012, 1012, 1⟩,
   ⟨-64, 1013, 1013, 1⟩, ⟨1, 1015, 1015, 1⟩, ⟨-7, 1017, 1017, 1⟩, ⟨1, 1018, 1018, 1⟩,
   ⟨-130, 1021, 1023, 1⟩, ⟨80, 1024, 1039, 1⟩, ⟨32, 1040, 1071, 1⟩, ⟨1, 1120, 1152, 2⟩,
   ⟨1, 1162, 1214, 2⟩, ⟨15, 1216, 1216, 1⟩, ⟨1, 1217, 1229, 2⟩, ⟨1, 1232, 1326, 2⟩,
   ⟨48, 1329, 1366, 1⟩, ⟨7264, 4256, 4293, 1⟩, ⟨7264, 4295, 4295, 1⟩, ⟨7264, 4301, 4301, 1⟩,
   ⟨-8, 5112, 5117, 1⟩, ⟨-6222, 7296, 7296, 1⟩, ⟨-6221, 7297, 7297, 1⟩, ⟨-6212, 7298, 7298, 1⟩,
   ⟨-6210, 7299, 7300, 1⟩, ⟨-6211, 7301, 7301, 1⟩, ⟨-6204, 7302, 7302, 1⟩, ⟨-6180, 7303, 7303, 1⟩,
   ⟨35267, 7304, 7304, 1⟩, ⟨-3008, 7312, 7354, 1⟩, ⟨-3008, 7357, 7359, 1⟩, ⟨1, 7680, 7828, 2⟩,
   ⟨-58, 7835, 7835, 1⟩, ⟨1, 7840, 7934, 2⟩, ⟨-8, 7944, 7951, 1⟩, ⟨-8, 7960, 7965, 1⟩,
   ⟨-8, 7976, 7983, 1⟩, ⟨-8, 7992, 7999, 1⟩, ⟨-8, 8008, 8013, 1⟩, ⟨-8, 8025, 8031, 2⟩,
   ⟨-8, 8040, 8047, 1⟩, ⟨-8, 8120, 8121, 1⟩, ⟨-74, 8122, 8123, 1⟩, ⟨-7173, 8126, 8126, 1⟩,
   ⟨-86, 8136, 8139, 1⟩, ⟨-8, 8152, 8153, 1⟩, ⟨-100, 8154, 8155, 1⟩, ⟨-8, 8168, 8169, 1⟩,
   ⟨-112, 8170, 8171, 1⟩, ⟨-7, 8172, 8172, 1⟩, ⟨-128, 8184, 8185, 1⟩, ⟨-126, 8186, 8187, 1⟩,
   ⟨-7517, 8486, 8486, 1⟩, ⟨-8383, 8490, 8490, 1⟩, ⟨-8262, 8491, 8491, 1⟩, ⟨28, 8498, 8498, 1⟩,
   ⟨16, 8544, 8559, 1⟩, ⟨1, 8579, 8579, 1⟩, ⟨26, 9398, 9423, 1⟩, ⟨48, 11264, 11311, 1⟩,
   ⟨1, 11360, 11360, 1⟩, ⟨-10743, 11362, 11362, 1⟩, ⟨-3814, 11363, 11363, 1⟩,
   ⟨-10727, 11364, 11364, 1⟩, ⟨1, 11367, 11371, 2⟩, ⟨-10780, 11373, 11373, 1⟩,
   ⟨-10749, 11374, 11374, 1⟩, ⟨-10783, 11375, 11375, 1⟩, ⟨-10782, 11376, 11376, 1⟩,
   ⟨1, 11378, 11378, 1⟩, ⟨1, 11381, 11381, 1⟩, ⟨-10815, 11390, 11391, 1⟩, ⟨1, 11392, 11490, 2⟩,
   ⟨1, 11499, 11501, 2⟩, ⟨1, 11506, 11506, 1⟩, ⟨1, 42560, 42604, 2⟩, ⟨1, 42624, 42650, 2⟩,
   ⟨1, 42786, 42798, 2⟩, ⟨1, 42802, 42862, 2⟩, ⟨1, 42873, 42875, 2⟩, ⟨-35332, 42877, 42877, 1⟩,
   ⟨1, 42878, 42886, 2⟩, ⟨1, 42891, 42891, 1⟩, ⟨-42280, 42893, 42893, 1⟩, ⟨1, 42896, 42898, 2⟩,
   ⟨1, 42902, 42920, 2⟩, ⟨-42308, 42922, 42922, 1⟩, ⟨-42319, 42923, 42923, 1⟩,
   ⟨-42315, 42924, 42924, 1⟩, ⟨-42305, 42925, 42925, 1⟩, ⟨-42308, 42926, 42926, 1⟩,
   ⟨-42258, 42928, 42928, 1⟩, ⟨-42282, 42929, 42929, 1⟩, ⟨-42261, 42930, 42930, 1⟩,
   ⟨928, 42931, 42931, 1⟩, ⟨1, 42932, 42946, 2⟩, ⟨-48, 42948, 42948, 1⟩, ⟨-42307, 42949, 42949, 1⟩,
   ⟨-35384, 42950, 42950, 1⟩, ⟨1, 42951, 42953, 2⟩, ⟨1, 42960, 42960, 1⟩, ⟨1, 42966, 42968, 2⟩,
   ⟨1, 42997, 42997, 1⟩, ⟨-38864, 43888, 43967, 1⟩, ⟨32, 65313, 65338, 1⟩, ⟨40, 66560, 66599, 1⟩,
   ⟨40, 66736, 66771, 1⟩, ⟨39, 66928, 66938, 1⟩, ⟨39, 66940, 66954, 1⟩, ⟨39, 66956, 66962, 1⟩,
   ⟨39, 66964, 66965, 1⟩, ⟨64, 68736, 68786, 1⟩, ⟨32, 71840, 71871, 1⟩, ⟨32, 93760, 93791, 1⟩,
   ⟨34, 125184, 125217, 1⟩]

/-- The characters whose folding is longer than one character. -/
def longFoldings : List (Nat × List Nat) :=
  [(223, [115, 115]), (304, [105, 775]), (329, [700, 110]), (496, [106, 780]),
   (912, [953, 776, 769]), (944, [965, 776, 769]), (1415, [1381, 1410]), (7830, [104, 817]),
   (7831, [116, 776]), (7832, [119, 778]), (7833, [121, 778]), (7834, [97, 702]),
   (7838, [115, 115]), (8016, [965, 787]), (8018, [965, 787, 768]), (8020, [965, 787, 769]),
   (8022, [965, 787, 834]), (8064, [7936, 953]), (8065, [7937, 953]), (8066, [7938, 953]),
   (8067, [7939, 953]), (8068, [7940, 953]), (8069, [7941, 953]), (8070, [7942, 953]),
   (8071, [7943, 953]), (8072, [7936, 953]), (8073, [7937, 953]), (8074, [7938, 953]),
   (8075, [7939, 953]), (8076, [7940, 953]), (8077, [7941, 953]), (8078, [7942, 953]),
   (8079, [7943, 953]), (8080, [7968, 953]), (8081, [7969, 953]), (8082, [7970, 953]),
   (8083, [7971, 953]), (8084, [7972, 953]), (8085, [7973, 953]), (8086, [7974, 953]),
   (8087, [7975, 953]), (8088, [7968, 953]), (8089, [7969, 953]), (8090, [7970, 953]),
   (8091, [7971, 953]), (8092, [7972, 953]), (8093, [7973, 953]), (8094, [7974, 953]),
   (8095, [7975, 953]), (8096, [8032, 953]), (8097, [8033, 953]), (8098, [8034, 953]),
   (8099, [8035, 953]), (8100, [8036, 953]), (8101, [8037, 953]), (8102, [8038, 953]),
   (8103, [8039, 953]), (8104, [8032, 953]), (8105, [8033, 953]), (8106, [8034, 953]),
   (8107, [8035, 953]), (8108, [8036, 953]), (8109, [8037, 953]), (8110, [8038, 953]),
   (8111, [8039, 953]), (8114, [8048, 953]), (8115, [945, 953]), (8116, [940, 953]),
   (8118, [945, 834]), (8119, [945, 834, 953]), (8124, [945, 953]), (8130, [8052, 953]),
   (8131, [951, 953]), (8132, [942, 953]), (8134, [951, 834]), (8135, [951, 834, 953]),
   (8140, [951, 953]), (8146, [953, 776, 768]), (8147, [953, 776, 769]), (8150, [953, 834]),
   (8151, [953, 776, 834]), (8162, [965, 776, 768]), (8163, [965, 776, 769]), (8164, [961, 787]),
   (8166, [965, 834]), (8167, [965, 776, 834]), (8178, [8060, 953]), (8179, [969, 953]),
   (8180, [974, 953]), (8182, [969, 834]), (8183, [969, 834, 953]), (8188, [969, 953]),
   (64256, [102, 102]), (64257, [102, 105]), (64258, [102, 108]), (64259, [102, 102, 105]),
   (64260, [102, 102, 108]), (64261, [115, 116]), (64262, [115, 116]), (64275, [1396, 1398]),
   (64276, [1396, 1381]), (64277, [1396, 1387]), (64278, [1406, 1398]), (64279, [1396, 1389])]

/-- The folding of one character, as code points. -/
def foldCode (code : Nat) : List Nat :=
  match longFoldings.find? (·.1 == code) with
  | some (_, folded) => folded
  | none => [shift foldShifts code]

def foldChar (c : Char) : List Char := (foldCode c.toNat).map Char.ofNat

/-- The folding of a text: its characters folded one after another. -/
def fold (text : List Char) : List Char := text.flatMap foldChar

end Descent.Text
